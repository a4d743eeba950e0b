/-
Module: PeerCove.Proofs.PolicyMigration
Layer: Proofs
Purpose: What becomes of the denied pairs when the policy that was read is written back, and when
  every packet is decided as before.
Trusted boundary: none
Main exports: pairDenied, restAction, migratedAcl_valid, migration_preserves_iff
-/
import PeerCove.Ops.Acl
import PeerCove.Proofs.AclRefinement
import PeerCove.Proofs.DnsLabels
import Mathlib.Data.Fintype.Card

namespace PeerCove

open Fallible

/-! ### Ids of the migrated rules -/

theorem migratedId_toList (index : Nat) (suffix : String) :
    (migratedId index suffix).toList =
      "legacy-".toList ++ (index.repr.toList ++ ('-' :: suffix.toList)) := by
  have number : (toString index).toList = index.repr.toList := rfl
  have same (text : String) : (toString text).toList = text.toList := rfl
  simp only [migratedId, String.toList_append, number, same, List.append_assoc]
  rfl

/-- A number is known by its digits. -/
theorem repr_injective {one two : Nat} (same : one.repr = two.repr) : one = two := by
  have digits : Nat.toDigits 10 one = Nat.toDigits 10 two := by
    rw [← Nat.toList_repr, ← Nat.toList_repr, same]
  rw [← Nat.ofDigitChars_ten_toDigits (n := one), digits, Nat.ofDigitChars_ten_toDigits]

/-- Ids with suffixes of one length differ in the number or in the suffix. -/
theorem migratedId_injective {one two : Nat} {first second : String}
    (length : first.length = second.length)
    (same : migratedId one first = migratedId two second) : one = two ∧ first = second := by
  have chars := congrArg String.toList same
  rw [migratedId_toList, migratedId_toList, List.append_cancel_left_eq] at chars
  have tails : ('-' :: first.toList).length = ('-' :: second.toList).length := by
    rw [List.length_cons, List.length_cons, String.length_toList, String.length_toList, length]
  obtain ⟨digits, suffixes⟩ := List.append_inj' chars tails
  exact ⟨repr_injective (String.toList_injective digits),
    String.toList_injective (List.cons.inj suffixes).2⟩

/-- A pair of addresses as one number. -/
def pairCode (pair : Ipv4Addr × Ipv4Addr) : Fin (2 ^ 64) :=
  ⟨pair.1.toNat * 2 ^ 32 + pair.2.toNat, by
    have one := pair.1.isLt
    have two := pair.2.isLt
    omega⟩

theorem pairCode_injective : Function.Injective pairCode := by
  rintro ⟨a, b⟩ ⟨c, d⟩ same
  have codes : a.toNat * 2 ^ 32 + b.toNat = c.toNat * 2 ^ 32 + d.toNat := Fin.mk.inj same
  have lower := b.isLt
  have lower' := d.isLt
  have first : a.toNat = c.toNat := by omega
  have second : b.toNat = d.toNat := by omega
  rw [BitVec.eq_of_toNat_eq first, BitVec.eq_of_toNat_eq second]

/-- There are not more pairs than addresses allow, so the number in an id is short. -/
theorem normalizedDeny_length_lt (acl : AclConfig) : acl.normalizedDeny.length < 10 ^ 20 := by
  have codes : (acl.normalizedDeny.map pairCode).Nodup :=
    (SortDedup.nodup_sortDedup pairLe _).map pairCode_injective
  have bound := codes.length_le_card
  rw [List.length_map, Fintype.card_fin] at bound
  omega

/-- Migrated ids are labels. -/
theorem migratedId_shape {index : Nat} (small : index < 10 ^ 20) {suffix : String}
    (known : suffix = "a-b" ∨ suffix = "b-a") :
    Names.LabelShape (migratedId index suffix).toList := by
  have digits : index.repr.length ≤ 20 := (Nat.length_repr_le_iff (by decide)).mpr small
  rw [migratedId_toList]
  rcases known with rfl | rfl
  · refine Names.labelShape_numbered (by decide) (by decide) (by decide) (by decide) ?_
    have bound : 7 + index.repr.length + 4 ≤ 63 := by omega
    exact bound
  · refine Names.labelShape_numbered (by decide) (by decide) (by decide) (by decide) ?_
    have bound : 7 + index.repr.length + 4 ≤ 63 := by omega
    exact bound

/-- The ids of the rules for a number of pairs. -/
theorem migratedRules_ids (config : Config) :
    (migratedRules config).map AclRule.id =
      (List.range config.acl.normalizedDeny.length).flatMap
        (fun index => [migratedId index "a-b", migratedId index "b-a"]) := by
  have positions := List.zipIdx_map_snd 0 config.acl.normalizedDeny
  rw [List.range_eq_range', ← positions, migratedRules, List.map_flatMap, List.flatMap_map]
  rfl

theorem mem_migratedRules_ids {config : Config} {id : String} :
    id ∈ (migratedRules config).map AclRule.id ↔
      ∃ index < config.acl.normalizedDeny.length, ∃ suffix,
        (suffix = "a-b" ∨ suffix = "b-a") ∧ id = migratedId index suffix := by
  rw [migratedRules_ids]
  simp only [List.mem_flatMap, List.mem_range, List.mem_cons, List.not_mem_nil, or_false]
  constructor
  · rintro ⟨index, small, rfl | rfl⟩
    · exact ⟨index, small, "a-b", .inl rfl, rfl⟩
    · exact ⟨index, small, "b-a", .inr rfl, rfl⟩
  · rintro ⟨index, small, suffix, rfl | rfl, rfl⟩
    · exact ⟨index, small, .inl rfl⟩
    · exact ⟨index, small, .inr rfl⟩

/-- No migrated id is given twice. -/
theorem migratedRules_ids_nodup (config : Config) :
    ((migratedRules config).map AclRule.id).Nodup := by
  have lengths : "a-b".length = "b-a".length := by decide
  rw [migratedRules_ids]
  refine List.nodup_flatMap.mpr ⟨?_, List.nodup_range.imp ?_⟩
  · intro index _
    have differ : migratedId index "a-b" ≠ migratedId index "b-a" := by
      intro same
      exact absurd (migratedId_injective lengths same).2 (by decide)
    simpa using differ
  · intro one two differ
    change List.Disjoint _ _
    rw [List.disjoint_left]
    intro id first second
    simp only [List.mem_cons, List.not_mem_nil, or_false] at first second
    rcases first with rfl | rfl
    · rcases second with same | same
      · exact differ (migratedId_injective rfl same).1
      · exact differ (migratedId_injective lengths same).1
    · rcases second with same | same
      · exact differ (migratedId_injective lengths.symm same).1
      · exact differ (migratedId_injective rfl same).1

/-! ### The written policy decides -/

/-- The packet passes between the two addresses of the pair themselves. -/
def pairExact (packet : PacketInfo) (pair : Ipv4Addr × Ipv4Addr) : Bool :=
  (packet.src = pair.1 && packet.dst = pair.2) || (packet.src = pair.2 && packet.dst = pair.1)

/-- Some denied pair is exactly the two addresses of the packet. -/
def pairDenied (config : Config) (packet : PacketInfo) : Bool :=
  config.acl.deny.any (pairExact packet)

/-- What the rules after the denied pairs give. -/
def restAction (config : Config) (packet : PacketInfo) : AclAction :=
  FirstMatch.pick (ruleAdmits config packet) AclRule.action config.acl.default
    config.acl.enabledRules

section

variable {config : Config} {acl : AclConfig} (groups : acl.groups = config.acl.groups)
include groups

/-- Of the section `[acl]` the ends of a rule read the groups only. -/
theorem denotes_acl (target : AclTarget) (ip : Ipv4Addr) :
    denotes { config with acl := acl } target ip = denotes config target ip := by
  cases target with
  | group group =>
      simp only [denotes, groups]
      rfl
  | _ => rfl

theorem blurs_acl (target : AclTarget) (ip : Ipv4Addr) :
    blurs { config with acl := acl } target ip = blurs config target ip := by
  cases target with
  | group group =>
      simp only [blurs, groups]
      rfl
  | _ => rfl

theorem ruleAdmits_acl (packet : PacketInfo) (rule : AclRule) :
    ruleAdmits { config with acl := acl } packet rule = ruleAdmits config packet rule := by
  rw [ruleAdmits, denotes_acl groups, denotes_acl groups, blurs_acl groups, blurs_acl groups]
  rfl

theorem resolveTarget_acl (target : AclTarget) (destination : Bool) :
    resolveTarget { config with acl := acl } target destination =
      resolveTarget config target destination := by
  cases target with
  | group group =>
      simp only [resolveTarget, groups]
      rfl
  | _ => rfl

end

/-- A free text denotes what `any` does. -/
theorem ruleAdmits_ruleItem (config : Config) (packet : PacketInfo) (rule : AclRule) :
    ruleAdmits config packet (ruleItem rule) = ruleAdmits config packet rule := by
  have denoted (target : AclTarget) (ip : Ipv4Addr) :
      denotes config (targetItem target) ip = denotes config target ip := by
    cases target <;> rfl
  have blurred (target : AclTarget) (ip : Ipv4Addr) :
      blurs config (targetItem target) ip = blurs config target ip := by
    cases target <;> rfl
  simp only [ruleAdmits, ruleItem, denoted, blurred]

theorem resolveTarget_targetItem {config : Config} {target : AclTarget} {destination : Bool}
    {nets : List Ipv4Net} (resolved : resolveTarget config target destination = .ok nets) :
    resolveTarget config (targetItem target) destination = .ok nets := by
  cases target with
  | any value =>
      simp only [resolveTarget] at resolved
      split at resolved
      · exact resolved
      · cases resolved
  | _ => exact resolved

/-- A migrated rule catches the packets from one address of its pair to the other. -/
theorem ruleAdmits_migratedRule (config : Config) (packet : PacketInfo) (index : Nat)
    (suffix : String) (source destination : Ipv4Addr) :
    ruleAdmits config packet (migratedRule index suffix source destination) =
      (decide (packet.src = source) && decide (packet.dst = destination)) := by
  rw [Bool.eq_iff_iff]
  simp [ruleAdmits, migratedRule, denotes, blurs, protocolMatches]

theorem migratedRules_any (config : Config) (packet : PacketInfo) :
    (migratedRules config).any (ruleAdmits config packet) = pairDenied config packet := by
  have entries : (migratedRules config).any (ruleAdmits config packet) =
      config.acl.normalizedDeny.zipIdx.any (fun entry => pairExact packet entry.1) := by
    simp only [migratedRules, List.any_flatMap, List.any_cons, List.any_nil, Bool.or_false,
      ruleAdmits_migratedRule, pairExact]
  rw [entries]
  refine normalizedDeny_any config.acl (pairExact packet) (fun pair => ?_)
  unfold orderPair
  split
  · rfl
  · exact Bool.or_comm _ _

theorem mem_migratedRules {config : Config} {rule : AclRule} (member : rule ∈ migratedRules config) :
    ∃ index < config.acl.normalizedDeny.length, ∃ suffix source destination,
      (suffix = "a-b" ∨ suffix = "b-a") ∧ rule = migratedRule index suffix source destination := by
  obtain ⟨entry, listed, one⟩ := List.mem_flatMap.mp member
  have small : entry.2 < config.acl.normalizedDeny.length := by
    have bound := List.snd_lt_of_mem_zipIdx listed
    simpa using bound
  simp only [List.mem_cons, List.not_mem_nil, or_false] at one
  rcases one with rfl | rfl
  · exact ⟨entry.2, small, "a-b", entry.1.1, entry.1.2, .inl rfl, rfl⟩
  · exact ⟨entry.2, small, "b-a", entry.1.2, entry.1.1, .inr rfl, rfl⟩

/-! ### The written section -/

/-- The section `[acl]` after the policy has been read and written back. -/
def migratedAcl (config : Config) : AclConfig where
  default := config.acl.default
  groups := config.acl.groups
  rules := (migratedRules config ++ config.acl.rules).map ruleItem

theorem readPolicy_ok {config : Config} {policy : PolicySettings} :
    readPolicy config = .ok policy ↔
      config.validate = .ok () ∧
      policy = {
        default := config.acl.default
        groups := config.acl.groups
        rules := migratedRules config ++ config.acl.rules } := by
  unfold readPolicy
  simp only [bind_ok, pure_ok, exists_and_right, exists_done, eq_comm (b := policy)]

/-- What was read is written as the migrated section. -/
theorem writePolicy_migrated {config : Config} {policy : PolicySettings}
    (read : readPolicy config = .ok policy) :
    writePolicy config policy = writeValidated { config with acl := migratedAcl config } := by
  obtain ⟨_, rfl⟩ := readPolicy_ok.mp read
  rfl

/-- Migrated rules stand before the others. -/
theorem enabledRules_migratedAcl (config : Config) :
    (migratedAcl config).enabledRules =
      migratedRules config ++ config.acl.enabledRules.map ruleItem := by
  have kept : ((migratedRules config).map ruleItem).filter (fun rule => rule.enabled) =
      migratedRules config := by
    have same : (migratedRules config).map ruleItem = migratedRules config := by
      refine (List.map_congr_left (fun rule member => ?_)).trans (List.map_id _)
      obtain ⟨_, _, _, _, _, _, rfl⟩ := mem_migratedRules member
      rfl
    rw [same, List.filter_eq_self]
    intro rule member
    obtain ⟨_, _, _, _, _, _, rfl⟩ := mem_migratedRules member
    rfl
  have others : (config.acl.rules.map ruleItem).filter (fun rule => rule.enabled) =
      config.acl.enabledRules.map ruleItem := by
    rw [List.filter_map]
    rfl
  rw [AclConfig.enabledRules, migratedAcl]
  simp only [List.map_append, List.filter_append, kept, others]

/-- The migrated rules compile, and the others as they did. -/
theorem migratedAcl_compiles (checked : ValidConfig) :
    ∃ policy, AclPolicy.compile { checked.config with acl := migratedAcl checked.config } =
      .ok policy := by
  have before := compile_exists.mp checked.policy_exists
  refine compile_exists.mpr (fun rule member => ?_)
  rw [enabledRules_migratedAcl] at member
  rcases List.mem_append.mp member with migrated | kept
  · obtain ⟨index, small, suffix, source, destination, known, rfl⟩ := mem_migratedRules migrated
    have shape := migratedId_shape (small.trans (normalizedDeny_length_lt _)) known
    have accepted : ¬ (Text.trim (migratedId index suffix) = "" ∨
        Text.len (migratedId index suffix) > 64) := by
      rw [shape.trim_eq, not_or]
      refine ⟨fun empty => shape.nonempty (by rw [empty]; rfl), ?_⟩
      exact Nat.not_lt.mpr (shape.len_le.trans (by decide))
    exact ⟨_, compileRule_ok.mpr ⟨accepted, [], rfl, by simp, _, rfl, _, rfl, rfl⟩⟩
  · obtain ⟨old, enabled, rfl⟩ := List.mem_map.mp kept
    obtain ⟨resolved, compiled⟩ := before old enabled
    obtain ⟨accepted, ports, parsed, fitting, source, one, destination, two, _⟩ :=
      compileRule_ok.mp compiled
    have groups : (migratedAcl checked.config).groups = checked.config.acl.groups := rfl
    exact ⟨_, compileRule_ok.mpr ⟨accepted, ports, parsed, fitting,
      source, (resolveTarget_acl groups _ _).trans (resolveTarget_targetItem one),
      destination, (resolveTarget_acl groups _ _).trans (resolveTarget_targetItem two), rfl⟩⟩

/-- The written configuration is valid unless a rule has the id of a migrated one. -/
theorem migratedAcl_valid (checked : ValidConfig) :
    ({ checked.config with acl := migratedAcl checked.config } : Config).validate = .ok () ↔
      ∀ rule ∈ checked.config.acl.rules,
        rule.id ∉ (migratedRules checked.config).map AclRule.id := by
  obtain ⟨_, _, _, _, _, _, _, groups, rules, _⟩ := Config.validate_ok.mp checked.valid
  obtain ⟨nodup, labels⟩ := checkIds_ok.mp rules
  have ids : (migratedAcl checked.config).rules.map AclRule.id =
      (migratedRules checked.config).map AclRule.id ++ checked.config.acl.rules.map AclRule.id := by
    rw [← List.map_append, migratedAcl, List.map_map]
    rfl
  have migratedLabels : ∀ id ∈ (migratedRules checked.config).map AclRule.id,
      Names.isDnsLabel id = true := by
    intro id member
    obtain ⟨index, small, suffix, known, rfl⟩ := mem_migratedRules_ids.mp member
    have shape := migratedId_shape (small.trans (normalizedDeny_length_lt _)) known
    simp [Names.isDnsLabel, Names.dnsLabel_of_shape shape]
  have accepted : checkIds "acl.rule" [] ((migratedAcl checked.config).rules.map AclRule.id) =
      .ok () ↔ _ := checkIds_ok
  rw [Config.validate_acl checked.valid, accepted, ids, List.nodup_append]
  constructor
  · rintro ⟨_, _, ⟨⟨_, _, apart⟩, _⟩, _⟩ rule member clash
    exact apart _ clash _ (List.mem_map_of_mem member) rfl
  · intro apart
    refine ⟨rfl, groups, ⟨⟨migratedRules_ids_nodup _, nodup, ?_⟩, ?_⟩,
      migratedAcl_compiles checked⟩
    · rintro one migrated two kept rfl
      obtain ⟨rule, member, rfl⟩ := List.mem_map.mp kept
      exact apart rule member migrated
    · intro id member
      refine ⟨?_, List.not_mem_nil⟩
      rcases List.mem_append.mp member with migrated | kept
      · exact migratedLabels id migrated
      · exact (labels id kept).1

/-- The written policy denies the exact pairs and then decides as the rules did. -/
theorem action_migratedAcl (checked : ValidConfig) (packet : PacketInfo) :
    ({ checked.config with acl := migratedAcl checked.config } : Config).action packet =
      some (if pairDenied checked.config packet then .deny
        else restAction checked.config packet) := by
  obtain ⟨policy, compiled⟩ := migratedAcl_compiles checked
  have groups : (migratedAcl checked.config).groups = checked.config.acl.groups := rfl
  have admits : ruleAdmits { checked.config with acl := migratedAcl checked.config } packet =
      ruleAdmits checked.config packet := funext (ruleAdmits_acl groups packet)
  have none : legacyDenied { checked.config with acl := migratedAcl checked.config } packet =
      false := rfl
  rw [action_eq compiled, none, admits, enabledRules_migratedAcl, FirstMatch.pick_append,
    FirstMatch.pick_const _ _ .deny, migratedRules_any, FirstMatch.pick_map]
  · have same : ruleAdmits checked.config packet ∘ ruleItem =
        ruleAdmits checked.config packet :=
      funext (ruleAdmits_ruleItem checked.config packet)
    rw [same]
    rfl
  · intro rule member
    obtain ⟨_, _, _, _, _, _, rfl⟩ := mem_migratedRules member
    rfl

/-! ### Writing back what was read -/

theorem pairExact_holds {config : Config} {packet : PacketInfo} {pair : Ipv4Addr × Ipv4Addr}
    (exact : pairExact packet pair = true) : pairHolds config packet pair = true := by
  simp only [pairExact, pairHolds, sideHolds, Bool.or_eq_true, Bool.and_eq_true,
    decide_eq_true_eq] at exact ⊢
  rcases exact with ⟨source, destination⟩ | ⟨source, destination⟩
  · exact .inl ⟨.inl source, .inl destination⟩
  · exact .inr ⟨.inl source, .inl destination⟩

/-- The addresses of a denied pair are among those it stands for. -/
theorem legacyDenied_of_pairDenied {config : Config} {packet : PacketInfo}
    (denied : pairDenied config packet = true) : legacyDenied config packet = true := by
  obtain ⟨pair, listed, exact⟩ := List.any_eq_true.mp denied
  exact List.any_eq_true.mpr ⟨pair, listed, pairExact_holds exact⟩

/-- The ids of the migrated rules are known by their numbers. -/
theorem migrated_ids_free {config : Config} :
    (∀ rule ∈ config.acl.rules, rule.id ∉ (migratedRules config).map AclRule.id) ↔
      ∀ rule ∈ config.acl.rules, ∀ index < config.acl.normalizedDeny.length,
        rule.id ≠ migratedId index "a-b" ∧ rule.id ≠ migratedId index "b-a" := by
  constructor
  · intro free rule member index small
    refine ⟨fun same => ?_, fun same => ?_⟩
    · exact free rule member (mem_migratedRules_ids.mpr ⟨index, small, _, .inl rfl, same⟩)
    · exact free rule member (mem_migratedRules_ids.mpr ⟨index, small, _, .inr rfl, same⟩)
  · intro free rule member clash
    obtain ⟨index, small, suffix, rfl | rfl, same⟩ := mem_migratedRules_ids.mp clash
    · exact (free rule member index small).1 same
    · exact (free rule member index small).2 same

/-- Writing back the policy that was read keeps every decision exactly when no rule carries the
id of a migrated rule, and the rules after the denied pairs deny by themselves what a pair denies
beyond its two addresses. -/
theorem migration_preserves_iff (checked : ValidConfig) :
    (∃ policy written, readPolicy checked.config = .ok policy ∧
        writePolicy checked.config policy = .ok written ∧
        ∀ packet, written.action packet = checked.config.action packet) ↔
      (∀ rule ∈ checked.config.acl.rules,
        ∀ index < checked.config.acl.normalizedDeny.length,
          rule.id ≠ migratedId index "a-b" ∧ rule.id ≠ migratedId index "b-a") ∧
      ∀ packet, legacyDenied checked.config packet = true →
        pairDenied checked.config packet = true ∨
          restAction checked.config packet = .deny := by
  obtain ⟨policy, compiled⟩ := checked.policy_exists
  -- before and after, the same rules follow the pairs
  have agree (packet : PacketInfo) :
      ({ checked.config with acl := migratedAcl checked.config } : Config).action packet =
          checked.config.action packet ↔
        (legacyDenied checked.config packet = true →
          pairDenied checked.config packet = true ∨
            restAction checked.config packet = .deny) := by
    rw [action_migratedAcl, action_eq compiled]
    cases exact : pairDenied checked.config packet with
    | true => simp [legacyDenied_of_pairDenied exact]
    | false =>
        cases denied : legacyDenied checked.config packet with
        | true => simp
        | false => simp [restAction]
  rw [← migrated_ids_free, ← migratedAcl_valid]
  constructor
  · rintro ⟨policy, written, read, wrote, same⟩
    rw [writePolicy_migrated read, writeValidated_ok] at wrote
    obtain ⟨valid, rfl⟩ := wrote
    exact ⟨valid, fun packet => (agree packet).mp (same packet)⟩
  · rintro ⟨valid, covered⟩
    have read := readPolicy_ok.mpr ⟨checked.valid, rfl⟩
    refine ⟨_, _, read, ?_, fun packet => (agree packet).mpr (covered packet)⟩
    rw [writePolicy_migrated read, writeValidated_ok]
    exact ⟨valid, rfl⟩

/-! ### A member with a network behind it -/

/-- A member with a branch network and another one, denied to each other. -/
def deniedBranch : Config where
  interface := { address := .slash24 0x0a070001 }
  peers := [
    { publicKey := ⟨1⟩
      allowedIps := [Ipv4Net.host 0x0a070002]
      subnets := [.slash24 0xc0a83200] },
    { publicKey := ⟨2⟩, allowedIps := [Ipv4Net.host 0x0a070003] }]
  acl := { deny := [(0x0a070002, 0x0a070003)] }

/-- From a device of the branch to the other member. -/
def branchToMember : PacketInfo where
  src := 0xc0a83205
  dst := 0x0a070003
  protocol := 6
  dstPort := some 22

/-- The pair denies the branch as well; the rules it is written back as do not. -/
theorem migration_opensBranch :
    deniedBranch.validate = .ok () ∧
      ¬ ∃ policy written, readPolicy deniedBranch = .ok policy ∧
        writePolicy deniedBranch policy = .ok written ∧
        ∀ packet, written.action packet = deniedBranch.action packet := by
  have valid : deniedBranch.validate = .ok () := by decide
  refine ⟨valid, ?_⟩
  rintro ⟨policy, written, read, wrote, same⟩
  rw [writePolicy_migrated read, writeValidated_ok] at wrote
  obtain ⟨_, rfl⟩ := wrote
  have before : deniedBranch.action branchToMember = some .deny := by decide
  have after : ({ deniedBranch with acl := migratedAcl deniedBranch } : Config).action
      branchToMember = some .allow := by decide
  have agree := same branchToMember
  rw [before, after] at agree
  cases agree

end PeerCove
