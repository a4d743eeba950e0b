/-
Module: PeerCove.Proofs.KeyRotation
Layer: Proofs
Purpose: What a key rotation keeps: the configuration stays valid and means the same, exactly when
  the access control section does not know the rotated key by itself.
Trusted boundary: none
Main exports: validate_replaceKey_iff, rotatePeerKey_preserves_iff
-/
import PeerCove.Ops.Peers
import PeerCove.Host.Identity
import PeerCove.Proofs.AclRefinement
import Mathlib.Data.List.Find

namespace PeerCove

open Fallible

section ReplaceKey

variable {config : Config} {old new : PublicKey}

/-! ### Lookups in the edited configuration -/

theorem replaceKey_old : replaceKey old new old = new := by
  simp [replaceKey]

theorem replaceKey_of_ne {key : PublicKey} (other : key ≠ old) : replaceKey old new key = key := by
  simp [replaceKey, other]

/-- Two keys other than the new one are told apart after the edit too. -/
theorem replaceKey_inj {one two : PublicKey} (first : one ≠ new) (second : two ≠ new) :
    replaceKey old new one = replaceKey old new two ↔ one = two := by
  unfold replaceKey
  split
  · rename_i isOld
    split
    · rename_i isOld'
      simp [isOld, isOld']
    · rename_i notOld
      constructor
      · intro same
        exact absurd same.symm second
      · intro same
        exact absurd (same ▸ isOld) notOld
  · rename_i notOld
    split
    · rename_i isOld
      constructor
      · intro same
        exact absurd same first
      · intro same
        exact absurd (same ▸ isOld) notOld
    · rfl

theorem find_replaceKey (fresh : ∀ peer ∈ config.peers, peer.publicKey ≠ new) {key : PublicKey}
    (other : key ≠ new) :
    (config.replaceKey old new).peers.find? (fun peer => peer.publicKey = replaceKey old new key) =
      (config.peers.find? (fun peer => peer.publicKey = key)).map (PeerConfig.replaceKey old new) := by
  rw [Config.replaceKey, List.find?_map]
  congr 1
  apply List.find?_congr
  intro peer listed
  simp [PeerConfig.replaceKey, replaceKey_inj (fresh peer listed) other]

theorem peerNetworks_replaceKey (old : PublicKey)
    (fresh : ∀ peer ∈ config.peers, peer.publicKey ≠ new)
    {key : PublicKey} (other : key ≠ new) :
    peerNetworks (config.replaceKey old new) (replaceKey old new key) = peerNetworks config key := by
  rw [peerNetworks, find_replaceKey fresh other, peerNetworks, Option.map_map]
  rfl

/-- Nobody carries the old key any more. -/
theorem peerNetworks_replaceKey_old (differ : old ≠ new) :
    peerNetworks (config.replaceKey old new) old = none := by
  rw [peerNetworks, Option.map_eq_none_iff, List.find?_eq_none]
  intro peer listed
  obtain ⟨source, _, rfl⟩ := List.mem_map.mp listed
  by_cases isOld : source.publicKey = old
  · simp [PeerConfig.replaceKey, replaceKey, isOld, differ.symm]
  · simp [PeerConfig.replaceKey, replaceKey, isOld]

theorem peerNetworks_new (fresh : ∀ peer ∈ config.peers, peer.publicKey ≠ new) :
    peerNetworks config new = none := by
  rw [peerNetworks, Option.map_eq_none_iff, List.find?_eq_none]
  intro peer listed
  simpa using fresh peer listed

/-- Lookups by address find the same peer. -/
theorem find_virtualIp_replaceKey (ip : Ipv4Addr) :
    (config.replaceKey old new).peers.find? (fun peer => peer.virtualIp = some ip) =
      (config.peers.find? (fun peer => peer.virtualIp = some ip)).map
        (PeerConfig.replaceKey old new) := by
  rw [Config.replaceKey, List.find?_map]
  rfl

theorem sideNetworks_replaceKey (ip : Ipv4Addr) :
    sideNetworks (config.replaceKey old new) ip = sideNetworks config ip := by
  unfold sideNetworks
  rw [Config.replaceKey, List.find?_map]
  have same : (fun peer : PeerConfig => peer.allowedIps.any (·.contains ip)) ∘
      PeerConfig.replaceKey old new = fun peer => peer.allowedIps.any (·.contains ip) := rfl
  rw [same]
  cases config.peers.find? (fun peer => peer.allowedIps.any (·.contains ip)) with
  | none => rfl
  | some peer => rfl

theorem legacyRules_replaceKey : legacyRules (config.replaceKey old new) = legacyRules config := by
  have rule (index : Nat) (source destination : Ipv4Addr) :
      legacyRule (config.replaceKey old new) index source destination =
        legacyRule config index source destination := by
    rw [legacyRule, legacyRule, sideNetworks_replaceKey, sideNetworks_replaceKey]
  unfold legacyRules
  simp only [rule]
  rfl

/-! ### Validation of the edited configuration -/

theorem memberExists_iff {key : PublicKey} :
    config.memberExists (.key key) = true ↔ ∃ peer ∈ config.peers, peer.publicKey = key := by
  simp [Config.memberExists]

theorem memberExists_replaceKey {reference : MemberRef} (known : config.memberExists reference = true) :
    (config.replaceKey old new).memberExists (reference.replaceKey old new) = true := by
  cases reference with
  | host => rfl
  | key key =>
      obtain ⟨peer, listed, rfl⟩ := memberExists_iff.mp known
      apply memberExists_iff.mpr
      exact ⟨peer.replaceKey old new, List.mem_map_of_mem listed, rfl⟩

theorem advertisedSubnets_replaceKey (fresh : ∀ peer ∈ config.peers, peer.publicKey ≠ new)
    {reference : MemberRef} (known : config.memberExists reference = true) :
    (config.replaceKey old new).advertisedSubnets (reference.replaceKey old new) =
      config.advertisedSubnets reference := by
  cases reference with
  | host => rfl
  | key key =>
      obtain ⟨peer, listed, rfl⟩ := memberExists_iff.mp known
      simp only [MemberRef.replaceKey, Config.advertisedSubnets]
      rw [find_replaceKey fresh (fresh peer listed)]
      cases config.peers.find? (fun other => other.publicKey = peer.publicKey) with
      | none => rfl
      | some found => rfl

/-- References to members that exist are told apart after the edit. -/
theorem MemberRef.replaceKey_inj (fresh : ∀ peer ∈ config.peers, peer.publicKey ≠ new)
    {one two : MemberRef} (first : config.memberExists one = true)
    (second : config.memberExists two = true) :
    one.replaceKey old new = two.replaceKey old new ↔ one = two := by
  cases one with
  | host => cases two with
    | host => simp
    | key two => simp [MemberRef.replaceKey]
  | key one => cases two with
    | host => simp [MemberRef.replaceKey]
    | key two =>
        obtain ⟨_, listed, rfl⟩ := memberExists_iff.mp first
        obtain ⟨_, listed', rfl⟩ := memberExists_iff.mp second
        simp [MemberRef.replaceKey, PeerCove.replaceKey_inj (fresh _ listed) (fresh _ listed')]

theorem checkRecordTarget_replaceKey (record : DnsRecordConfig) :
    checkRecordTarget (record.replaceKey old new) = checkRecordTarget record := by
  have targets : (record.replaceKey old new).targets = record.targets := by
    simp [DnsRecordConfig.targets, DnsRecordConfig.replaceKey]
  unfold checkRecordTarget
  rw [targets]
  rfl

theorem checkRecordMembers_replaceKey (fresh : ∀ peer ∈ config.peers, peer.publicKey ≠ new)
    {record : DnsRecordConfig} (accepted : checkRecordMembers config record = .ok ()) :
    checkRecordMembers (config.replaceKey old new) (record.replaceKey old new) = .ok () := by
  obtain ⟨member, under, inside⟩ := checkRecordMembers_ok.mp accepted
  apply checkRecordMembers_ok.mpr
  refine ⟨?_, ?_, ?_⟩
  · intro edited named
    obtain ⟨reference, listed, rfl⟩ := Option.mem_map.mp named
    exact memberExists_replaceKey (member reference listed)
  · intro edited named
    obtain ⟨reference, listed, rfl⟩ := Option.mem_map.mp named
    exact memberExists_replaceKey (under reference listed)
  · intro ip edited fixed named
    obtain ⟨reference, listed, rfl⟩ := Option.mem_map.mp named
    rw [advertisedSubnets_replaceKey fresh (under reference listed)]
    exact inside ip reference fixed listed

/-- The pair a record must be unique by, after the edit. -/
def replaceSeen (old new : PublicKey) (entry : String × Option MemberRef) :
    String × Option MemberRef :=
  (entry.1, entry.2.map (MemberRef.replaceKey old new))

theorem checkRecords_replaceKey (fresh : ∀ peer ∈ config.peers, peer.publicKey ≠ new)
    {seen : List (String × Option MemberRef)} {ids : List String} {records : List DnsRecordConfig}
    (known : ∀ entry ∈ seen, ∀ reference ∈ entry.2, config.memberExists reference = true)
    (accepted : checkRecords config seen ids records = .ok ()) :
    checkRecords (config.replaceKey old new) (seen.map (replaceSeen old new)) ids
      (records.map (DnsRecordConfig.replaceKey old new)) = .ok () := by
  induction records generalizing seen ids with
  | nil => rfl
  | cons record rest ih =>
      obtain ⟨name, unseen, id, target, members, service, later⟩ := checkRecords_cons.mp accepted
      have under := (checkRecordMembers_ok.mp members).2.1
      rw [List.map_cons, checkRecords_cons]
      refine ⟨name, ?_, id, ?_, checkRecordMembers_replaceKey fresh members, service, ?_⟩
      · intro again
        obtain ⟨entry, listed, same⟩ := List.mem_map.mp again
        have sameName : entry.1 = record.name := congrArg Prod.fst same
        have sameUnder : entry.2.map (MemberRef.replaceKey old new) =
            record.under.map (MemberRef.replaceKey old new) := congrArg Prod.snd same
        have equal : entry.2 = record.under := by
          cases one : entry.2 with
          | none => simpa [one, eq_comm] using sameUnder
          | some first => cases two : record.under with
            | none => simp [one, two] at sameUnder
            | some second =>
                simp only [one, two, Option.map_some, Option.some.injEq] at sameUnder
                have exists₁ := known entry listed first one
                have exists₂ := under second two
                rw [(MemberRef.replaceKey_inj fresh exists₁ exists₂).mp sameUnder]
        apply unseen
        rw [← sameName, ← equal]
        exact listed
      · rw [checkRecordTarget_replaceKey]
        exact target
      · refine @ih ((record.name, record.under) :: seen) _ ?_ ?_
        · intro entry listed
          rcases List.mem_cons.mp listed with rfl | listed
          · exact under
          · exact known entry listed
        · exact later

/-- Apart from the policy, every check that accepts the configuration accepts it edited. -/
theorem validate_replaceKey (fresh : ∀ peer ∈ config.peers, peer.publicKey ≠ new)
    (valid : config.validate = .ok ()) :
    (config.replaceKey old new).validate = .ok () ↔
      ∃ policy, AclPolicy.compile (config.replaceKey old new) = .ok policy := by
  obtain ⟨interface, peers, subnets, keys, names, deny, records, groups, rules, _⟩ :=
    Config.validate_ok.mp valid
  rw [Config.validate_ok, checkPolicy_ok]
  refine ⟨fun h => h.2.2.2.2.2.2.2.2.2, fun policy => ?_⟩
  refine ⟨interface, ?_, ?_, ?_, names, deny, checkRecords_replaceKey fresh (by simp) records,
    groups, rules, policy⟩
  · rw [forM_ok] at peers ⊢
    intro entry listed
    rw [Config.replaceKey, List.zipIdx_map, List.mem_map] at listed
    obtain ⟨source, listed, rfl⟩ := listed
    exact peers source listed
  · have entries : (config.replaceKey old new).subnetEntries = config.subnetEntries := by
      simp [Config.subnetEntries, Config.replaceKey, List.zipIdx_map, List.flatMap_map,
        PeerConfig.replaceKey]
    rw [entries]
    exact subnets
  · rw [checkKeys_ok] at keys ⊢
    have edited : (config.replaceKey old new).peers.map PeerConfig.publicKey =
        (config.peers.map PeerConfig.publicKey).map (replaceKey old new) := by
      simp [Config.replaceKey, PeerConfig.replaceKey]
    rw [edited]
    apply List.Nodup.map_on _ keys
    intro one first two second same
    obtain ⟨peer, listed, rfl⟩ := List.mem_map.mp first
    obtain ⟨peer', listed', rfl⟩ := List.mem_map.mp second
    exact (replaceKey_inj (fresh peer listed) (fresh peer' listed')).mp same

/-! ### The policy of the edited configuration -/

/-- Access control that does not know the old key by itself, and groups that hold both keys or
neither. -/
def RotationSafe (config : Config) (old new : PublicKey) : Prop :=
  (∀ rule ∈ config.acl.enabledRules, rule.source ≠ .member old ∧ rule.destination ≠ .member old) ∧
  ∀ group ∈ config.acl.groups, old ∈ group.members ↔ new ∈ group.members

theorem matchesIp_congr {one two : List Ipv4Net} (same : ∀ net, net ∈ one ↔ net ∈ two)
    (ip : Ipv4Addr) : matchesIp one ip = matchesIp two ip := by
  have empty : one.isEmpty = two.isEmpty := by
    rw [Bool.eq_iff_iff, List.isEmpty_iff, List.isEmpty_iff, List.eq_nil_iff_forall_not_mem,
      List.eq_nil_iff_forall_not_mem]
    simp [same]
  have held : one.any (·.contains ip) = two.any (·.contains ip) := by
    rw [Bool.eq_iff_iff, List.any_eq_true, List.any_eq_true]
    simp [same]
  rw [matchesIp, matchesIp, empty, held]

theorem mem_groupNetworks {members : List PublicKey} {net : Ipv4Net} :
    net ∈ groupNetworks config members ↔
      ∃ key ∈ members, ∃ nets, peerNetworks config key = some nets ∧ net ∈ nets := by
  unfold groupNetworks
  rw [List.mem_flatMap]
  constructor
  · intro h
    obtain ⟨key, member, held⟩ := h
    cases known : peerNetworks config key with
    | none => simp [known] at held
    | some nets => exact ⟨key, member, nets, known, by simpa [known] using held⟩
  · intro h
    obtain ⟨key, member, nets, known, held⟩ := h
    exact ⟨key, member, by simpa [known] using held⟩

/-- A group that holds both keys or neither keeps its networks. -/
theorem groupNetworks_replaceKey (fresh : ∀ peer ∈ config.peers, peer.publicKey ≠ new)
    (differ : old ≠ new) {members : List PublicKey} (aligned : old ∈ members ↔ new ∈ members)
    (net : Ipv4Net) :
    net ∈ groupNetworks (config.replaceKey old new) members ↔
      net ∈ groupNetworks config members := by
  rw [mem_groupNetworks, mem_groupNetworks]
  constructor
  · intro h
    obtain ⟨key, member, nets, known, held⟩ := h
    by_cases isNew : key = new
    · subst isNew
      refine ⟨old, aligned.mpr member, nets, ?_, held⟩
      rw [← peerNetworks_replaceKey old fresh differ, replaceKey_old]
      exact known
    · have notOld : key ≠ old := by
        intro isOld
        rw [isOld, peerNetworks_replaceKey_old differ] at known
        cases known
      refine ⟨key, member, nets, ?_, held⟩
      rw [← peerNetworks_replaceKey old fresh isNew, replaceKey_of_ne notOld]
      exact known
  · intro h
    obtain ⟨key, member, nets, known, held⟩ := h
    have notNew : key ≠ new := by
      intro isNew
      rw [isNew, peerNetworks_new fresh] at known
      cases known
    have kept := peerNetworks_replaceKey old fresh notNew
    by_cases isOld : key = old
    · subst isOld
      rw [replaceKey_old] at kept
      exact ⟨new, aligned.mp member, nets, kept.trans known, held⟩
    · rw [replaceKey_of_ne isOld] at kept
      exact ⟨key, member, nets, kept.trans known, held⟩

theorem resolveService_replaceKey (fresh : ∀ peer ∈ config.peers, peer.publicKey ≠ new)
    {service : String} {nets : List Ipv4Net} (resolved : resolveService config service = .ok nets) :
    resolveService (config.replaceKey old new) service = .ok nets := by
  unfold resolveService at resolved ⊢
  have found : (config.replaceKey old new).dnsRecords.find? (fun record => record.id = some service)
      = (config.dnsRecords.find? (fun record => record.id = some service)).map
        (DnsRecordConfig.replaceKey old new) := by
    rw [Config.replaceKey, List.find?_map]
    rfl
  rw [found]
  cases listed : config.dnsRecords.find? (fun record => record.id = some service) with
  | none => simp [listed] at resolved
  | some record =>
      simp only [listed, Option.map_some, DnsRecordConfig.replaceKey] at resolved ⊢
      split at resolved
      · cases resolved
      split at resolved
      · cases resolved
      rename_i noAlias hasPort
      simp only [noAlias, hasPort, Bool.false_eq_true, if_false]
      cases fixed : record.ip with
      | some ip => simpa [fixed] using resolved
      | none =>
          cases named : record.member with
          | none => simp [fixed, named] at resolved
          | some reference => cases reference with
            | host => simp [fixed, named] at resolved
            | key key =>
                simp only [fixed, named, Option.map_some, MemberRef.replaceKey] at resolved ⊢
                have notNew : key ≠ new := by
                  intro isNew
                  simp [isNew, peerNetworks_new fresh] at resolved
                rw [peerNetworks_replaceKey _ fresh notNew]
                exact resolved

/-- An end that does not name the old key itself still resolves, to the same networks. -/
theorem resolveTarget_replaceKey (fresh : ∀ peer ∈ config.peers, peer.publicKey ≠ new)
    (differ : old ≠ new)
    (aligned : ∀ group ∈ config.acl.groups, old ∈ group.members ↔ new ∈ group.members)
    {target : AclTarget} (indirect : target ≠ .member old) {destination : Bool}
    {nets : List Ipv4Net} (resolved : resolveTarget config target destination = .ok nets) :
    ∃ edited, resolveTarget (config.replaceKey old new) target destination = .ok edited ∧
      ∀ net, net ∈ edited ↔ net ∈ nets := by
  cases target with
  | any value => exact ⟨nets, resolved, fun _ => Iff.rfl⟩
  | subnet subnet => exact ⟨nets, resolved, fun _ => Iff.rfl⟩
  | service service =>
      cases destination with
      | false => simp [resolveTarget] at resolved
      | true => exact ⟨nets, resolveService_replaceKey fresh resolved, fun _ => Iff.rfl⟩
  | member key =>
      have notOld : key ≠ old := fun isOld => indirect (isOld ▸ rfl)
      simp only [resolveTarget] at resolved ⊢
      cases known : peerNetworks config key with
      | none => simp [known] at resolved
      | some held =>
          have notNew : key ≠ new := by
            intro isNew
            simp [isNew, peerNetworks_new fresh] at known
          have kept := peerNetworks_replaceKey old fresh notNew
          rw [replaceKey_of_ne notOld, known] at kept
          rw [known] at resolved
          rw [kept]
          exact ⟨nets, resolved, fun _ => Iff.rfl⟩
  | group group =>
      simp only [resolveTarget] at resolved ⊢
      have same : (config.replaceKey old new).acl = config.acl := rfl
      rw [same]
      cases found : config.acl.groups.find? (fun candidate => candidate.id = group) with
      | none => simp [found] at resolved
      | some candidate =>
          simp only [found, Except.ok.injEq] at resolved ⊢
          refine ⟨_, rfl, fun net => ?_⟩
          rw [← resolved]
          exact groupNetworks_replaceKey fresh differ
            (aligned candidate (List.mem_of_find?_eq_some found)) net

/-- Two resolved rules no packet can tell apart. -/
def SameHits (one two : ResolvedRule) : Prop :=
  one.action = two.action ∧ ∀ packet, one.hits packet = two.hits packet

theorem compileRule_replaceKey (fresh : ∀ peer ∈ config.peers, peer.publicKey ≠ new)
    (differ : old ≠ new)
    (aligned : ∀ group ∈ config.acl.groups, old ∈ group.members ↔ new ∈ group.members)
    {rule : AclRule} (source : rule.source ≠ .member old)
    (destination : rule.destination ≠ .member old) {resolved : ResolvedRule}
    (compiled : compileRule config rule = .ok resolved) :
    ∃ edited, compileRule (config.replaceKey old new) rule = .ok edited ∧
      SameHits edited resolved := by
  obtain ⟨id, ports, parsed, allowed, nets, one, nets', two, rfl⟩ := compileRule_ok.mp compiled
  obtain ⟨held, first, same⟩ := resolveTarget_replaceKey fresh differ aligned source one
  obtain ⟨held', second, same'⟩ := resolveTarget_replaceKey fresh differ aligned destination two
  refine ⟨rule.resolveWith held held' ports, ?_, rfl, fun packet => ?_⟩
  · exact compileRule_ok.mpr ⟨id, ports, parsed, allowed, held, first, held', second, rfl⟩
  · simp only [ResolvedRule.hits, AclRule.resolveWith]
    rw [matchesIp_congr same, matchesIp_congr same']

theorem pick_sameHits {one two : List ResolvedRule} (same : List.Forall₂ SameHits one two)
    (packet : PacketInfo) (fallback : AclAction) :
    FirstMatch.pick (ResolvedRule.hits packet) ResolvedRule.action fallback one =
      FirstMatch.pick (ResolvedRule.hits packet) ResolvedRule.action fallback two := by
  induction same with
  | nil => rfl
  | cons here rest ih => rw [FirstMatch.pick_cons, FirstMatch.pick_cons, here.2, here.1, ih]

theorem compileRules_replaceKey (fresh : ∀ peer ∈ config.peers, peer.publicKey ≠ new)
    (differ : old ≠ new)
    (aligned : ∀ group ∈ config.acl.groups, old ∈ group.members ↔ new ∈ group.members)
    {sources : List AclRule} {rules : List ResolvedRule}
    (each : List.Forall₂ (fun rule resolved => compileRule config rule = .ok resolved)
      sources rules)
    (indirect : ∀ rule ∈ sources, rule.source ≠ .member old ∧ rule.destination ≠ .member old) :
    ∃ edited, List.Forall₂
        (fun rule resolved => compileRule (config.replaceKey old new) rule = .ok resolved)
        sources edited ∧ List.Forall₂ SameHits edited rules := by
  induction each with
  | nil => exact ⟨[], .nil, .nil⟩
  | cons here rest ih =>
      obtain ⟨source, destination⟩ := indirect _ List.mem_cons_self
      obtain ⟨head, made, same⟩ := compileRule_replaceKey fresh differ aligned source destination here
      obtain ⟨tail, later, sames⟩ := ih (fun rule member =>
        indirect rule (List.mem_cons_of_mem _ member))
      exact ⟨head :: tail, .cons made later, .cons same sames⟩

/-- A safe rotation keeps the policy: it compiles, and decides every packet as before. -/
theorem compile_replaceKey (fresh : ∀ peer ∈ config.peers, peer.publicKey ≠ new)
    (differ : old ≠ new) (safe : RotationSafe config old new) {policy : AclPolicy}
    (compiled : AclPolicy.compile config = .ok policy) :
    ∃ edited, AclPolicy.compile (config.replaceKey old new) = .ok edited ∧
      ∀ packet, (edited.evaluate packet).action = (policy.evaluate packet).action := by
  obtain ⟨rules, each, rfl⟩ := compile_ok.mp compiled
  obtain ⟨edited, made, same⟩ := compileRules_replaceKey fresh differ safe.2 each safe.1
  refine ⟨_, compile_ok.mpr ⟨edited, made, rfl⟩, fun packet => ?_⟩
  rw [evaluate_action, evaluate_action, FirstMatch.pick_append, FirstMatch.pick_append,
    pick_sameHits same, legacyRules_replaceKey]
  rfl

/-- A rule that names the old key does not compile any more. -/
theorem compile_replaceKey_inv (differ : old ≠ new) {policy : AclPolicy}
    (compiled : AclPolicy.compile (config.replaceKey old new) = .ok policy) :
    ∀ rule ∈ config.acl.enabledRules,
      rule.source ≠ .member old ∧ rule.destination ≠ .member old := by
  obtain ⟨rules, each, _⟩ := compile_ok.mp compiled
  have gone (destination : Bool) (nets : List Ipv4Net) :
      resolveTarget (config.replaceKey old new) (.member old) destination ≠ .ok nets := by
    simp [resolveTarget, peerNetworks_replaceKey_old differ]
  intro rule member
  obtain ⟨resolved, _, made⟩ := ok_of_mem each member
  obtain ⟨_, _, _, _, source, one, destination, two, _⟩ := compileRule_ok.mp made
  constructor
  · intro named
    rw [named] at one
    exact gone _ _ one
  · intro named
    rw [named] at two
    exact gone _ _ two

end ReplaceKey

/-! ### Groups of the rotated member -/

/-- Selections from a list without repeated names have the same names when they are the same. -/
theorem filter_map_eq_iff {α β : Type} (name : α → β) {values : List α}
    (nodup : (values.map name).Nodup) (one two : α → Bool) :
    (values.filter one).map name = (values.filter two).map name ↔
      ∀ value ∈ values, one value = two value := by
  constructor
  · intro same value member
    have transfer (p q : α → Bool)
        (same : (values.filter p).map name = (values.filter q).map name)
        (kept : p value = true) : q value = true := by
      have named : name value ∈ (values.filter p).map name :=
        List.mem_map_of_mem (List.mem_filter.mpr ⟨member, kept⟩)
      rw [same] at named
      obtain ⟨other, listed, equal⟩ := List.mem_map.mp named
      obtain ⟨listed, kept⟩ := List.mem_filter.mp listed
      rw [← List.inj_on_of_nodup_map nodup listed member equal]
      exact kept
    rw [Bool.eq_iff_iff]
    exact ⟨transfer one two same, transfer two one same.symm⟩
  · intro agree
    rw [List.filter_congr agree]

/-- The first peer with an address is the only one when there is only one. -/
theorem find_of_filter {config : Config} {ip : Ipv4Addr} {target : PeerConfig}
    (only : config.peers.filter (fun peer => peer.virtualIp = some ip) = [target]) :
    config.peers.find? (fun peer => peer.virtualIp = some ip) = some target := by
  rw [← List.head?_filter, only]
  rfl

theorem groupIdsFor_eq {config : Config} {ip : Ipv4Addr} {target : PeerConfig}
    (found : config.peers.find? (fun peer => peer.virtualIp = some ip) = some target) :
    groupIdsFor config ip =
      (config.acl.groups.filter (fun group => group.members.contains target.publicKey)).map
        AclGroup.id := by
  rw [groupIdsFor, found]

/-- The member keeps its groups when each group holds both keys or neither. -/
theorem groupIdsFor_replaceKey_iff {config : Config} {ip : Ipv4Addr} {target : PeerConfig}
    {new : PublicKey} (valid : config.validate = .ok ())
    (found : config.peers.find? (fun peer => peer.virtualIp = some ip) = some target) :
    groupIdsFor (config.replaceKey target.publicKey new) ip = groupIdsFor config ip ↔
      ∀ group ∈ config.acl.groups, target.publicKey ∈ group.members ↔ new ∈ group.members := by
  have edited : (config.replaceKey target.publicKey new).peers.find?
      (fun peer => peer.virtualIp = some ip) =
        some (target.replaceKey target.publicKey new) := by
    rw [find_virtualIp_replaceKey, found]
    rfl
  have key : (target.replaceKey target.publicKey new).publicKey = new := replaceKey_old
  have nodup := ValidConfig.groupIds_nodup ⟨config, valid⟩
  rw [groupIdsFor_eq found, groupIdsFor_eq edited, key]
  apply Iff.trans (filter_map_eq_iff AclGroup.id nodup _ _)
  apply forall₂_congr
  intro group _
  rw [Bool.eq_iff_iff, List.contains_iff_mem, List.contains_iff_mem]
  exact Iff.comm

/-! ### Rotation as a whole -/

/-- The rotation succeeds, and leaves every decision and the member's groups as they were. -/
def RotationPreserves (config : Config) (memberIp : Ipv4Addr) (newKey host : PublicKey) : Prop :=
  ∃ outcome written, rotatePeerKey config memberIp newKey host = .ok (outcome, written) ∧
    (∃ before after, AclPolicy.compile config = .ok before ∧
      AclPolicy.compile written = .ok after ∧
      ∀ packet, (after.evaluate packet).action = (before.evaluate packet).action) ∧
    groupIdsFor written memberIp = groupIdsFor config memberIp

/-- A rotation of a registered member to an unused key preserves access control exactly when the
address is one peer's only, no enabled rule names the member's old key, and every group holds both
keys or neither. -/
theorem rotatePeerKey_preserves_iff {config : Config} {memberIp : Ipv4Addr}
    {newKey host : PublicKey} (valid : config.validate = .ok ()) (notHost : newKey ≠ host)
    (unused : ∀ peer ∈ config.peers, peer.publicKey ≠ newKey) :
    RotationPreserves config memberIp newKey host ↔
      ∃ target, config.peers.filter (fun peer => peer.virtualIp = some memberIp) = [target] ∧
        RotationSafe config target.publicKey newKey := by
  constructor
  · intro h
    obtain ⟨outcome, written, rotated, ⟨_, after, _, compiled, _⟩, groups⟩ := h
    obtain ⟨target, found, _, _, rfl⟩ := (rotatePeerKey_ok valid notHost unused).mp rotated
    have only := findPeer_ok.mp found
    have differ : target.publicKey ≠ newKey := by
      apply unused
      exact (List.mem_filter.mp (only ▸ List.mem_singleton.mpr rfl)).1
    refine ⟨target, only, compile_replaceKey_inv differ compiled, ?_⟩
    exact (groupIdsFor_replaceKey_iff valid (find_of_filter only)).mp groups
  · intro h
    obtain ⟨target, only, safe⟩ := h
    have differ : target.publicKey ≠ newKey := by
      apply unused
      exact (List.mem_filter.mp (only ▸ List.mem_singleton.mpr rfl)).1
    obtain ⟨before, compiled⟩ := ValidConfig.policy_exists ⟨config, valid⟩
    obtain ⟨after, recompiled, same⟩ := compile_replaceKey unused differ safe compiled
    have edited := (validate_replaceKey unused valid).mpr ⟨after, recompiled⟩
    refine ⟨.applied (target.name.getD memberIp.display), _, ?_,
      ⟨before, after, compiled, recompiled, same⟩, ?_⟩
    · apply (rotatePeerKey_ok valid notHost unused).mpr
      exact ⟨target, findPeer_ok.mpr only, edited, rfl, rfl⟩
    · exact (groupIdsFor_replaceKey_iff valid (find_of_filter only)).mpr safe.2

/-- One member, who is in the group `staff`. -/
def staffNetwork : Config where
  interface := { address := .slash24 0x0a070001 }
  peers := [{ publicKey := ⟨1⟩, allowedIps := [Ipv4Net.host 0x0a070002] }]
  acl := { groups := [{ id := "staff", members := [⟨1⟩] }] }

/-- The member of `staff` rotates its key and is in no group afterwards. -/
theorem rotatePeerKey_staffNetwork :
    staffNetwork.validate = .ok () ∧
      (∃ peer ∈ staffNetwork.peers, peer.virtualIp = some 0x0a070002) ∧
      (⟨2⟩ : PublicKey) ≠ ⟨9⟩ ∧ (∀ peer ∈ staffNetwork.peers, peer.publicKey ≠ ⟨2⟩) ∧
      ¬ RotationPreserves staffNetwork 0x0a070002 ⟨2⟩ ⟨9⟩ := by
  have rotated : rotatePeerKey staffNetwork 0x0a070002 ⟨2⟩ ⟨9⟩ =
      .ok (.applied "10.7.0.2", staffNetwork.replaceKey ⟨1⟩ ⟨2⟩) := by decide
  have before : groupIdsFor staffNetwork 0x0a070002 = ["staff"] := by decide
  have after : groupIdsFor (staffNetwork.replaceKey ⟨1⟩ ⟨2⟩) 0x0a070002 = [] := by
    decide
  refine ⟨by decide, by decide, by decide, by decide, ?_⟩
  intro preserved
  obtain ⟨outcome, written, same, _, groups⟩ := preserved
  rw [rotated] at same
  obtain ⟨_, rfl⟩ := Prod.mk.inj (Except.ok.inj same)
  rw [after, before] at groups
  cases groups

/-- The characterisation, for the member of this network. -/
theorem rotatePeerKey_preserves_iff_staffNetwork :
    RotationPreserves staffNetwork 0x0a070002 ⟨2⟩ ⟨9⟩ ↔
      ∃ target, staffNetwork.peers.filter (fun peer => peer.virtualIp = some 0x0a070002) = [target] ∧
        RotationSafe staffNetwork target.publicKey ⟨2⟩ :=
  rotatePeerKey_preserves_iff (by decide) (by decide) (by decide)

end PeerCove
