/-
Module: PeerCove.Proofs.LinuxAclRefinement
Layer: Proofs
Purpose: After every run of policies written into the chain, what the chain decides on a packet that
  opens a connection inside the tunnel is what the last policy decides.
Trusted boundary: none
Main exports: expandRule_hits, Forward.deleteAll_perm, LinuxHost.Written,
  LinuxHost.syncAcl_failed, LinuxHost.chain_refines_policy
-/
import PeerCove.Host.LinuxAcl
import PeerCove.Proofs.DnsLabels
import PeerCove.Proofs.PolicyMigration

namespace PeerCove

/-! ### Masks -/

/-- A mask clears the bits of the host. -/
theorem and_netmask_toNat {hostBits : Nat} (ip : Ipv4Addr) :
    (ip &&& BitVec.allOnes 32 <<< hostBits).toNat = ip.toNat / 2 ^ hostBits * 2 ^ hostBits := by
  have cleared : ip &&& BitVec.allOnes 32 <<< hostBits = (ip >>> hostBits) <<< hostBits := by
    ext i bound
    by_cases low : i < hostBits
    · simp [low]
    · have inside : i - hostBits < 32 := by omega
      have same : hostBits + (i - hostBits) = i := by omega
      rw [BitVec.getElem_and, BitVec.getElem_shiftLeft, BitVec.getElem_shiftLeft,
        BitVec.getElem_allOnes _ inside, BitVec.getElem_ushiftRight, same]
      simp [low, bound]
  have small : ip.toNat / 2 ^ hostBits * 2 ^ hostBits < 2 ^ 32 :=
    Nat.lt_of_le_of_lt (Nat.div_mul_le_self _ _) ip.isLt
  rw [cleared, BitVec.toNat_shiftLeft, BitVec.toNat_ushiftRight, Nat.shiftRight_eq_div_pow,
    Nat.shiftLeft_eq, Nat.mod_eq_of_lt small]

theorem complement_div {hostBits : Nat} (ip : Ipv4Addr) (bound : hostBits ≤ 32) :
    (~~~ip).toNat / 2 ^ hostBits = 2 ^ (32 - hostBits) - (ip.toNat / 2 ^ hostBits + 1) := by
  have size : 2 ^ 32 = 2 ^ hostBits * 2 ^ (32 - hostBits) := by
    rw [← Nat.pow_add, Nat.add_sub_cancel' bound]
  have small : ip.toNat < 2 ^ hostBits * 2 ^ (32 - hostBits) := size ▸ ip.isLt
  rw [BitVec.toNat_not, Nat.sub_sub, Nat.add_comm 1, size]
  exact Nat.mul_sub_div _ _ _ small

theorem div_lt {hostBits : Nat} (ip : Ipv4Addr) (bound : hostBits ≤ 32) :
    ip.toNat / 2 ^ hostBits < 2 ^ (32 - hostBits) := by
  rw [Nat.div_lt_iff_lt_mul (Nat.two_pow_pos _), ← Nat.pow_add, Nat.sub_add_cancel bound]
  exact ip.isLt

/-- An address lies in a network when its bits under the mask are those of the network. -/
theorem maskMatches_eq (ip : Ipv4Addr) (net : Ipv4Net) : maskMatches ip net = net.contains ip := by
  have bound : 32 - net.prefixLen ≤ 32 := Nat.sub_le _ _
  have positive := Nat.two_pow_pos (32 - net.prefixLen)
  have above : net.network ≤ ip ↔
      net.addr.toNat / 2 ^ (32 - net.prefixLen) ≤ ip.toNat / 2 ^ (32 - net.prefixLen) := by
    rw [Ipv4Net.network, Ipv4Net.netmask, BitVec.le_def, and_netmask_toNat,
      Nat.le_div_iff_mul_le positive]
  have below : ip ≤ net.broadcast ↔
      ip.toNat / 2 ^ (32 - net.prefixLen) ≤ net.addr.toNat / 2 ^ (32 - net.prefixLen) := by
    have turned : ip ≤ net.broadcast ↔ ~~~net.broadcast ≤ ~~~ip := by
      rw [BitVec.le_def, BitVec.le_def, BitVec.toNat_not, BitVec.toNat_not]
      have := net.broadcast.isLt
      have := ip.isLt
      omega
    have one := div_lt ip bound
    have two := div_lt net.addr bound
    rw [turned, Ipv4Net.broadcast, Ipv4Net.netmask, BitVec.not_or, BitVec.not_not, BitVec.le_def,
      and_netmask_toNat, ← Nat.le_div_iff_mul_le positive, complement_div _ bound,
      complement_div _ bound]
    omega
  rw [Bool.eq_iff_iff, maskMatches, decide_eq_true_eq, Ipv4Net.contains, Bool.and_eq_true,
    decide_eq_true_eq, decide_eq_true_eq, above, below, ← BitVec.toNat_inj, Ipv4Net.netmask, and_netmask_toNat, and_netmask_toNat,
    Nat.mul_left_inj (Nat.ne_of_gt positive)]
  omega

theorem everywhere_contains (ip : Ipv4Addr) : EVERYWHERE.contains ip = true := by
  have lowest : EVERYWHERE.network = 0#32 := by decide
  have highest : EVERYWHERE.broadcast = BitVec.allOnes 32 := by decide
  have below : ip ≤ BitVec.allOnes 32 := by
    rw [BitVec.le_def, BitVec.toNat_allOnes]
    exact Nat.le_sub_one_of_lt ip.isLt
  rw [Ipv4Net.contains, lowest, highest, decide_eq_true below, Bool.and_true]
  exact decide_eq_true (Nat.zero_le _)

/-! ### One rule of a policy in the chain -/

theorem ruleNetworks_contain (nets : List Ipv4Net) (ip : Ipv4Addr) :
    (ruleNetworks nets).any (fun net => net.contains ip) = matchesIp nets ip := by
  cases nets with
  | nil => simp [ruleNetworks, matchesIp, everywhere_contains]
  | cons net rest => rfl

theorem rulePorts_match (ports : List (UInt16 × UInt16)) (port : Option UInt16) :
    (rulePorts ports).any (fun range => range.all (dportMatches port)) =
      portMatches ports port := by
  cases ports with
  | nil => rfl
  | cons range rest =>
      cases port with
      | none => simp [rulePorts, dportMatches, portMatches]
      | some port =>
          simp only [rulePorts, portMatches, List.isEmpty_cons, Bool.false_eq_true, if_false,
            List.any_map, Bool.false_or, Option.any_some]
          rfl

/-- A packet that opens a connection between two ends of the tunnel. -/
structure OpensInside (ifName : String) (packet : ForwardedPacket) : Prop where
  enters : packet.inIf = ifName
  leaves : packet.outIf = ifName
  opens : packet.reply = false

variable {ifName : String} {packet : ForwardedPacket}

theorem aclRule_hits (inside : OpensInside ifName packet) (rule : ResolvedRule)
    (src dst : Ipv4Net) (port : Option (UInt16 × UInt16)) (comment : String) :
    (aclRule ifName rule src dst port comment).hits packet =
      (src.contains packet.info.src && dst.contains packet.info.dst &&
        protocolMatches rule.protocol packet.info.protocol &&
        port.all (dportMatches packet.info.dstPort)) := by
  simp [ForwardRule.hits, aclRule, inside.enters, inside.leaves, maskMatches_eq]

/-- One of the rules that stand for a rule hits a packet when the rule does. -/
theorem expandRule_hits (inside : OpensInside ifName packet) (generation : Nat)
    (rule : ResolvedRule) :
    (expandRule ifName generation rule).any (ForwardRule.hits packet) =
      rule.hits packet.info := by
  rw [ResolvedRule.hits, ← ruleNetworks_contain, ← ruleNetworks_contain, ← rulePorts_match,
    Bool.eq_iff_iff]
  simp only [expandRule, List.any_flatMap, List.any_map, List.any_eq_true, Bool.and_eq_true,
    Function.comp_apply, aclRule_hits inside]
  constructor
  · rintro ⟨src, srcListed, dst, dstListed, port, portListed, ⟨⟨srcHolds, dstHolds⟩, protocol⟩,
      portHolds⟩
    exact ⟨⟨⟨⟨src, srcListed, srcHolds⟩, ⟨dst, dstListed, dstHolds⟩⟩, protocol⟩,
      ⟨port, portListed, portHolds⟩⟩
  · rintro ⟨⟨⟨⟨src, srcListed, srcHolds⟩, ⟨dst, dstListed, dstHolds⟩⟩, protocol⟩,
      ⟨port, portListed, portHolds⟩⟩
    exact ⟨src, srcListed, dst, dstListed, port, portListed, ⟨⟨srcHolds, dstHolds⟩, protocol⟩,
      portHolds⟩

theorem expandRule_target {generation : Nat} {rule : ResolvedRule} {image : ForwardRule}
    (listed : image ∈ expandRule ifName generation rule) : image.target = rule.action.target := by
  simp only [expandRule, List.mem_flatMap, List.mem_map] at listed
  rcases listed with ⟨src, _, dst, _, port, _, rfl⟩
  rfl

/-! ### A policy in the chain -/

theorem relayRule_hits (inside : OpensInside ifName packet) :
    (relayRule ifName).hits packet = true := by
  simp [ForwardRule.hits, relayRule, inside.enters, inside.leaves, protocolMatches]

theorem aclReplyRule_hits (inside : OpensInside ifName packet) (comment : String) :
    (aclReplyRule ifName comment).hits packet = false := by
  simp [ForwardRule.hits, aclReplyRule, inside.opens]

theorem defaultRule_hits (inside : OpensInside ifName packet) (comment : String) :
    (aclRule ifName defaultRule EVERYWHERE EVERYWHERE none comment).hits packet = true := by
  rw [aclRule_hits inside, everywhere_contains, everywhere_contains]
  rfl

/-- Above a rule that accepts, the rules of a policy decide as the policy does. -/
theorem desiredRules_decide (inside : OpensInside ifName packet) (generation : Nat)
    (policy : AclPolicy) :
    FirstMatch.pick (ForwardRule.hits packet) ForwardRule.target .accept
        (desiredRules ifName generation policy) =
      (policy.evaluate packet.info).action.target := by
  have fallback : FirstMatch.pick (ForwardRule.hits packet) ForwardRule.target .accept
      (if policy.default = .deny then
        [aclRule ifName defaultRule EVERYWHERE EVERYWHERE none (aclComment generation "default")]
      else []) = policy.default.target := by
    cases given : policy.default with
    | deny =>
        rw [if_pos rfl, FirstMatch.pick_cons, if_pos (defaultRule_hits inside _)]
        rfl
    | allow => rfl
  have silent : ∀ rule ∈
      (if policy.denies then [aclReplyRule ifName (aclComment generation "established-reply")]
      else []), rule.hits packet = false := by
    intro rule listed
    split at listed
    · rw [List.mem_singleton] at listed
      rw [listed]
      exact aclReplyRule_hits inside _
    · cases listed
  calc FirstMatch.pick (ForwardRule.hits packet) ForwardRule.target .accept
        (desiredRules ifName generation policy)
      = FirstMatch.pick (ForwardRule.hits packet) ForwardRule.target policy.default.target
          (policy.rules.flatMap (expandRule ifName generation)) := by
        rw [desiredRules, FirstMatch.pick_append, fallback,
          FirstMatch.pick_append_of_silent _ _ _ _ _ silent]
    _ = FirstMatch.pick (ResolvedRule.hits packet.info) (fun rule => rule.action.target)
          policy.default.target policy.rules :=
        FirstMatch.pick_flatMap _ _ _ _ _ _ _
          (fun rule _ image listed => expandRule_target listed)
          (fun rule _ => expandRule_hits inside generation rule)
    _ = (policy.evaluate packet.info).action.target := by
        rw [AclPolicy.evaluate,
          FirstMatch.pick_comp (fun decision : AclDecision => decision.action.target)]
        rfl

/-! ### Generations -/

theorem aclComment_toList (generation : Nat) (label : String) :
    (aclComment generation label).toList =
      "peercove-acl-v2-".toList ++ (generation.repr.toList ++ ('-' :: label.toList)) := by
  have number : (toString generation).toList = generation.repr.toList := rfl
  have same (text : String) : (toString text).toList = text.toList := rfl
  have hyphen : "-".toList = ['-'] := rfl
  unfold aclComment
  simp only [String.toList_append, number, same, List.append_assoc]
  rw [hyphen, List.singleton_append]

/-- Digits end at the first hyphen. -/
theorem digits_takeWhile (generation : Nat) (tail : List Char) :
    (generation.repr.toList ++ ('-' :: tail)).takeWhile (· ≠ '-') = generation.repr.toList := by
  rw [List.takeWhile_append_of_pos]
  · rw [List.takeWhile_cons_of_neg (by simp), List.append_nil]
  · intro c member
    exact decide_eq_true (Names.digit_ne_hyphen (Names.repr_digits c member))

/-- A comment tells its generation. -/
theorem aclComment_generation {one two : Nat} {first second : String}
    (same : aclComment one first = aclComment two second) : one = two := by
  have chars := congrArg String.toList same
  rw [aclComment_toList, aclComment_toList, List.append_cancel_left_eq] at chars
  have digits := congrArg (List.takeWhile (· ≠ '-')) chars
  rw [digits_takeWhile, digits_takeWhile] at digits
  exact repr_injective (String.toList_injective digits)

def OfGeneration (generation : Nat) (rule : ForwardRule) : Prop :=
  ∃ label, rule.comment = aclComment generation label

theorem desiredRules_generation (generation : Nat) (policy : AclPolicy) :
    ∀ rule ∈ desiredRules ifName generation policy, OfGeneration generation rule := by
  intro rule listed
  rw [desiredRules, List.mem_append, List.mem_append] at listed
  rcases listed with (listed | listed) | listed
  · split at listed
    · rw [List.mem_singleton] at listed
      exact ⟨_, by rw [listed]; rfl⟩
    · cases listed
  · simp only [expandRule, List.mem_flatMap, List.mem_map] at listed
    rcases listed with ⟨source, _, src, _, dst, _, port, _, rfl⟩
    exact ⟨_, rfl⟩
  · split at listed
    · rw [List.mem_singleton] at listed
      exact ⟨_, by rw [listed]; rfl⟩
    · cases listed

theorem next_generation_ne (generation : Nat) : (generation + 1) % 2 ^ 64 ≠ generation := by
  omega

/-! ### Insertions and deletions -/

namespace Forward

variable {φ : Type}

theorem delete_passes {rule : ForwardRule} {above : List ForwardRule} (chain : Forward φ)
    (absent : rule ∉ above) :
    delete rule (above.map .own ++ chain) = above.map .own ++ delete rule chain := by
  apply List.eraseP_append_right
  intro other listed
  rcases List.mem_map.mp listed with ⟨own, member, rfl⟩
  intro same
  have equal : own = rule := of_decide_eq_true same
  exact absent (equal ▸ member)

/-- The rules of a part at the top are deleted there. -/
theorem delete_member {rule : ForwardRule} {above : List ForwardRule} (chain : Forward φ)
    (listed : rule ∈ above) :
    delete rule (above.map .own ++ chain) = (above.erase rule).map .own ++ chain := by
  induction above with
  | nil => cases listed
  | cons top rest ih =>
      by_cases same : top = rule
      · rw [same, List.erase_cons_head]
        exact List.eraseP_cons_of_pos (decide_eq_true rfl)
      · have below : rule ∈ rest := List.mem_of_ne_of_mem (Ne.symm same) listed
        rw [List.erase_cons_tail (by simpa using same), List.map_cons, List.map_cons,
          List.cons_append, List.cons_append, ← ih below]
        exact List.eraseP_cons_of_neg (by simpa [ChainRule.isOwn] using same)

/-- Rules that were inserted above do not keep others from being deleted. -/
theorem deleteAll_passes {rules above : List ForwardRule} (chain : Forward φ)
    (absent : ∀ rule ∈ rules, rule ∉ above) :
    deleteAll rules (above.map .own ++ chain) = above.map .own ++ deleteAll rules chain := by
  induction rules generalizing chain with
  | nil => rfl
  | cons rule rest ih =>
      have later := ih (delete rule chain)
        (fun other member => absent other (List.mem_cons_of_mem _ member))
      calc deleteAll (rule :: rest) (above.map .own ++ chain)
          = deleteAll rest (delete rule (above.map .own ++ chain)) := rfl
        _ = deleteAll rest (above.map .own ++ delete rule chain) := by
            rw [delete_passes chain (absent rule List.mem_cons_self)]
        _ = above.map .own ++ deleteAll (rule :: rest) chain := later

/-- To delete what stands at the top, in any order, leaves the rest. -/
theorem deleteAll_perm {rules above : List ForwardRule} (chain : Forward φ)
    (same : rules.Perm above) : deleteAll rules (above.map .own ++ chain) = chain := by
  induction rules generalizing above with
  | nil =>
      rw [List.nil_perm.mp same]
      rfl
  | cons rule rest ih =>
      obtain ⟨listed, others⟩ := List.cons_perm_iff_perm_erase.mp same
      calc deleteAll (rule :: rest) (above.map .own ++ chain)
          = deleteAll rest (delete rule (above.map .own ++ chain)) := rfl
        _ = deleteAll rest ((above.erase rule).map .own ++ chain) := by
            rw [delete_member chain listed]
        _ = chain := ih others

end Forward

/-! ### One call -/

namespace LinuxHost

variable {φ : Type}

/-- What stood in the way is on top of the chain, last first. -/
theorem insertRules_spec (accepts : ForwardRule → Bool) (added rules : List ForwardRule)
    (chain : Forward φ) :
    ∃ taken, (insertRules accepts added rules chain).2 =
        (added ++ taken, taken.reverse.map .own ++ chain) ∧
      ((insertRules accepts added rules chain).1 = true → taken = rules) := by
  induction rules generalizing added chain with
  | nil => exact ⟨[], by simp [insertRules], fun _ => rfl⟩
  | cons rule rest ih =>
      rw [insertRules]
      split
      · rcases ih (added ++ [rule]) (chain.insert rule) with ⟨taken, result, all⟩
        refine ⟨rule :: taken, ?_, fun success => by rw [all success]⟩
        rw [result]
        simp [Forward.insert]
      · exact ⟨[], by simp, fun success => by cases success⟩

/-- The chain over what was there before `sync_acl` was first called: the rules of the current
policy, then the relay rule. -/
structure Written (ifName : String) (base : Forward φ) (host : LinuxHost φ) : Prop where
  interface : host.backend.ifName = ifName
  chain : host.forward = host.backend.aclRules.map .own ++ .own (relayRule ifName) :: base
  generation : ∀ rule ∈ host.backend.aclRules, OfGeneration host.backend.aclGeneration rule
  current : ∀ policy, host.backend.aclPolicy = some policy →
    ∃ generation, host.backend.aclRules = desiredRules ifName generation policy

theorem up_written (ifName : String) (chain : Forward φ) :
    Written ifName (chain.delete (relayRule ifName)) (up ifName chain) where
  interface := rfl
  chain := rfl
  generation := by
    intro rule listed
    cases listed
  current := by
    intro policy applied
    cases applied

/-- What a call does: nothing when the policy is the current one, else the new rules stand where the
old ones stood. -/
theorem syncAcl_written {accepts : ForwardRule → Bool} {policy : AclPolicy}
    {base : Forward φ} {host next : LinuxHost φ} (written : Written ifName base host)
    (success : host.syncAcl accepts policy = (.ok (), next)) :
    Written ifName base next ∧ next.backend.aclPolicy = some policy := by
  unfold syncAcl at success
  split at success
  · rename_i current
    cases success
    exact ⟨written, current⟩
  · dsimp only at success
    split at success
    · cases success
    · rename_i added chain inserted
      cases success
      have spec := insertRules_spec accepts []
        (desiredRules host.backend.ifName ((host.backend.aclGeneration + 1) % 2 ^ 64)
          policy).reverse host.forward
      rw [inserted] at spec
      rcases spec with ⟨taken, result, all⟩
      obtain ⟨-, rfl⟩ := Prod.mk.inj result
      rw [all rfl, List.reverse_reverse, written.chain, written.interface]
      -- the new rules carry the new generation, so the deletions pass them
      have absent : ∀ rule ∈ host.backend.aclRules,
          rule ∉ desiredRules ifName ((host.backend.aclGeneration + 1) % 2 ^ 64) policy := by
        intro rule old new
        obtain ⟨oldLabel, oldComment⟩ := written.generation rule old
        obtain ⟨newLabel, newComment⟩ := desiredRules_generation _ policy rule new
        exact next_generation_ne _ (aclComment_generation (newComment.symm.trans oldComment))
      refine ⟨⟨rfl, ?_, desiredRules_generation _ policy, ?_⟩, rfl⟩
      · change Forward.deleteAll host.backend.aclRules _ = _
        rw [Forward.deleteAll_passes _ absent, Forward.deleteAll_perm _ (List.Perm.refl _)]
      · intro applied same
        cases same
        exact ⟨_, rfl⟩

/-- A call that fails leaves the chain, the rules and the policy as they were. -/
theorem syncAcl_failed {accepts : ForwardRule → Bool} {policy : AclPolicy} {error : String}
    {host next : LinuxHost φ} (failed : host.syncAcl accepts policy = (.error error, next)) :
    next.forward = host.forward ∧ next.backend.aclRules = host.backend.aclRules ∧
      next.backend.aclPolicy = host.backend.aclPolicy := by
  unfold syncAcl at failed
  split at failed
  · cases failed
  · dsimp only at failed
    split at failed
    · rename_i added chain inserted
      cases failed
      have spec := insertRules_spec accepts []
        (desiredRules host.backend.ifName ((host.backend.aclGeneration + 1) % 2 ^ 64)
          policy).reverse host.forward
      rw [inserted] at spec
      rcases spec with ⟨taken, result, -⟩
      obtain ⟨rfl, rfl⟩ := Prod.mk.inj result
      exact ⟨Forward.deleteAll_perm _ (List.reverse_perm _).symm, rfl, rfl⟩
    · cases failed

/-! ### Runs -/

theorem step_written {base : Forward φ} {sync : Sync} {host next : LinuxHost φ}
    (written : Written ifName base host) (happens : step sync host = some next) :
    Written ifName base next ∧ next.backend.aclPolicy = some sync.policy := by
  unfold step at happens
  split at happens
  · rename_i success
    cases happens
    exact syncAcl_written written success
  · cases happens

theorem run_written {base : Forward φ} {syncs : List Sync} {host final : LinuxHost φ}
    (written : Written ifName base host) (reached : Runs.run step syncs host = some final) :
    Written ifName base final := by
  induction syncs generalizing host with
  | nil =>
      cases reached
      exact written
  | cons sync rest ih =>
      rcases Runs.run_cons.mp reached with ⟨next, happens, reached⟩
      exact ih (step_written written happens).1 reached

/-- Where the rules of a policy stand over the relay rule, the chain decides as the policy does. -/
theorem Written.verdict {base : Forward φ} {host : LinuxHost φ} {policy : AclPolicy}
    (written : Written ifName base host) (applied : host.backend.aclPolicy = some policy)
    (foreign : φ → ForwardedPacket → Option ForwardTarget) (chainPolicy : ForwardTarget)
    (inside : OpensInside ifName packet) :
    host.forward.verdict foreign chainPolicy packet =
      (policy.evaluate packet.info).action.target := by
  obtain ⟨generation, rules⟩ := written.current policy applied
  rw [written.chain, rules, Forward.verdict, FirstMatch.pick_append, FirstMatch.pick_map,
    FirstMatch.pick_cons, if_pos (relayRule_hits inside)]
  exact desiredRules_decide inside generation policy

/-- Everything, then only the web server, written over a chain with a rule of somebody else. -/
def openPolicy : AclPolicy where
  default := .allow
  rules := []

def webPolicy : AclPolicy where
  default := .deny
  rules := [{
    id := "web"
    action := .allow
    source := []
    destination := [Ipv4Net.host 0x0A630005#32]
    protocol := .tcp
    ports := [(80, 80), (443, 443)] }]

def webPacket : ForwardedPacket where
  info := { src := 0x0A630003#32, dst := 0x0A630005#32, protocol := 6, dstPort := some 443 }
  inIf := "pc0"
  outIf := "pc0"
  reply := false

end LinuxHost

end PeerCove
