/-
Module: PeerCove.Proofs.FilterChains
Layer: Proofs
Purpose: What a chain decides about packets inside the tunnel once the rules of `sync_isolation` and
  of `sync_subnet_router` are left out of it, and what insertions and deletions do to it.
Trusted boundary: none
Main exports: OpensBetween, judged, Unrouted, accept_judged, filterRule_hits,
  accepted_by_policy, judged_insert, judged_delete, removed_top
-/
import PeerCove.Host.LinuxFilter
import PeerCove.Proofs.LinuxAclRefinement

namespace PeerCove

variable {φ : Type} {ifName : String} {packet : FilterPacket}

/-! ### Packets between two ends of the tunnel -/

/-- A packet that opens a connection between two ends of the tunnel. -/
structure OpensBetween (ifName : String) (packet : FilterPacket) : Prop where
  enters : packet.inIf = some ifName
  leaves : packet.outIf = some ifName
  opens : packet.reply = false

/-- The packet as the rules of a policy see it. -/
def FilterPacket.between (packet : FilterPacket) (ifName : String) : ForwardedPacket where
  info := packet.info
  inIf := ifName
  outIf := ifName
  reply := packet.reply

theorem OpensBetween.inside (opens : OpensBetween ifName packet) :
    OpensInside ifName (packet.between ifName) where
  enters := rfl
  leaves := rfl
  opens := opens.opens

theorem filterRule_hits (opens : OpensBetween ifName packet) (rule : ForwardRule) :
    rule.filterRule.hits packet = rule.hits (packet.between ifName) := by
  simp [FilterRule.hits, ForwardRule.hits, ForwardRule.filterRule, FilterPacket.between,
    opens.enters, opens.leaves, eq_comm]

/-! ### Comments -/

def ISOLATION_COMMENT : String := "peercove-invite-isolation"

def ROUTER_COMMENT : String := "peercove-subnet-router"

theorem aclComment_ne {generation : Nat} {label other : String}
    (differs : (other.toList.take 10) ≠ "peercove-acl-v2-".toList.take 10) :
    aclComment generation label ≠ other := by
  intro same
  apply differs
  rw [← same, aclComment_toList]
  exact List.take_append_of_le_length (by decide)

/-! ### Leaving rules out -/

/-- The rules of policies and of others: not what the isolation drops, and not the rules of a
router. -/
def FilterRule.judges (rule : FilterRule) : Bool :=
  !(rule.comment = ISOLATION_COMMENT && rule.target = .drop) && rule.comment ≠ ROUTER_COMMENT

def FilterEntry.judges : FilterEntry φ → Bool
  | .own rule => rule.judges
  | .foreign _ => true

def judged (chain : List (FilterEntry φ)) : List (FilterEntry φ) :=
  chain.filter FilterEntry.judges

/-- No rule for a LAN behind this machine concerns the packet. -/
def Unrouted (packet : FilterPacket) (chain : List (FilterEntry φ)) : Prop :=
  ∀ rule, .own rule ∈ chain → rule.comment = ROUTER_COMMENT → rule.hits packet = false

section
variable {foreign : φ → FilterPacket → Option ForwardTarget} {chainPolicy : ForwardTarget}

theorem chainVerdict_own (rule : FilterRule) (rest : List (FilterEntry φ)) :
    chainVerdict foreign chainPolicy (.own rule :: rest) packet =
      if rule.hits packet then rule.target else chainVerdict foreign chainPolicy rest packet := rfl

theorem chainVerdict_cons_congr {entry : FilterEntry φ} {one two : List (FilterEntry φ)}
    (same : chainVerdict foreign chainPolicy one packet = .accept →
      chainVerdict foreign chainPolicy two packet = .accept)
    (accepts : chainVerdict foreign chainPolicy (entry :: one) packet = .accept) :
    chainVerdict foreign chainPolicy (entry :: two) packet = .accept := by
  unfold chainVerdict at *
  rw [FirstMatch.pick_cons] at accepts ⊢
  split_ifs at accepts ⊢
  · exact accepts
  · exact same accepts

/-- What a chain accepts, it accepts without the rules that are left out. -/
theorem accept_judged {chain : List (FilterEntry φ)} (unrouted : Unrouted packet chain)
    (accepts : chainVerdict foreign chainPolicy chain packet = .accept) :
    chainVerdict foreign chainPolicy (judged chain) packet = .accept := by
  induction chain with
  | nil => exact accepts
  | cons entry rest ih =>
      have below := ih (fun rule listed => unrouted rule (List.mem_cons_of_mem _ listed))
      by_cases judges : entry.judges = true
      · rw [judged, List.filter_cons_of_pos judges]
        exact chainVerdict_cons_congr below accepts
      · rw [judged, List.filter_cons_of_neg judges]
        apply below
        cases entry with
        | foreign rule => exact absurd rfl judges
        | own rule =>
            rw [chainVerdict_own] at accepts
            split at accepts
            · -- a rule that is left out and hits is one of the isolation, which drops
              rename_i hit
              by_cases router : rule.comment = ROUTER_COMMENT
              · rw [unrouted rule List.mem_cons_self router] at hit
                cases hit
              · exact absurd (by simp [FilterEntry.judges, FilterRule.judges, accepts, router])
                  judges
            · exact accepts

/-- Rules above a chain that do not accept a packet leave it to the chain. -/
theorem accept_below {above : List FilterRule} {chain : List (FilterEntry φ)}
    (refuses : ∀ rule ∈ above, rule.target = .accept → rule.hits packet = false)
    (accepts : chainVerdict foreign chainPolicy (above.map .own ++ chain) packet = .accept) :
    chainVerdict foreign chainPolicy chain packet = .accept := by
  induction above with
  | nil => exact accepts
  | cons rule rest ih =>
      rw [List.map_cons, List.cons_append, chainVerdict_own] at accepts
      split at accepts
      · rename_i hit
        rw [refuses rule List.mem_cons_self accepts] at hit
        cases hit
      · exact ih (fun other listed => refuses other (List.mem_cons_of_mem _ listed)) accepts

/-- The rules of a policy at the top let nothing through that the policy denies. -/
theorem accepted_by_policy {policy : AclPolicy} {generation : Nat} {chain : List (FilterEntry φ)}
    (opens : OpensBetween ifName packet)
    (accepts : chainVerdict foreign chainPolicy
      (((desiredRules ifName generation policy).map ForwardRule.filterRule).map .own ++ chain)
      packet = .accept) : (policy.evaluate packet.info).action = .allow := by
  have decides := desiredRules_decide opens.inside generation policy
  have own : ∀ rules : List ForwardRule,
      chainVerdict foreign chainPolicy ((rules.map ForwardRule.filterRule).map .own ++ chain)
        packet = .accept →
      FirstMatch.pick (ForwardRule.hits (packet.between ifName)) ForwardRule.target .accept
        rules = .accept := by
    intro rules
    induction rules with
    | nil => exact fun _ => rfl
    | cons rule rest ih =>
        intro accepts
        rw [List.map_cons, List.map_cons, List.cons_append, chainVerdict_own,
          filterRule_hits opens] at accepts
        rw [FirstMatch.pick_cons]
        split
        · rename_i hit
          rwa [if_pos hit] at accepts
        · rename_i missed
          rw [if_neg missed] at accepts
          exact ih accepts
  rw [own _ accepts] at decides
  change AclAction.allow.target = _ at decides
  cases action : (policy.evaluate packet.info).action with
  | allow => rfl
  | deny =>
      rw [show (policy.evaluate (packet.between ifName).info).action = .deny from action] at decides
      cases decides

end

/-! ### Insertions and deletions -/

theorem judged_cons_out {rule : FilterRule} {chain : List (FilterEntry φ)}
    (out : rule.judges = false) :
    judged (.own rule :: chain) = judged chain :=
  List.filter_cons_of_neg (by simp [FilterEntry.judges, out])

theorem judged_cons_in {rule : FilterRule} {chain : List (FilterEntry φ)}
    (judges : rule.judges = true) :
    judged (.own rule :: chain) = .own rule :: judged chain :=
  List.filter_cons_of_pos judges

theorem isOwn_iff {rule : FilterRule} {entry : FilterEntry φ} :
    entry.isOwn rule = true ↔ entry = .own rule := by
  cases entry with
  | own other => simp [FilterEntry.isOwn]
  | foreign other => simp [FilterEntry.isOwn]

theorem judged_delete_out {rule : FilterRule} {chain : List (FilterEntry φ)}
    (out : rule.judges = false) :
    judged (chain.eraseP (FilterEntry.isOwn rule)) = judged chain := by
  induction chain with
  | nil => rfl
  | cons entry rest ih =>
      by_cases same : entry.isOwn rule = true
      · rw [List.eraseP_cons_of_pos same, isOwn_iff.mp same, judged_cons_out out]
      · rw [List.eraseP_cons_of_neg same, judged, judged, List.filter_cons, List.filter_cons]
        rw [judged, judged] at ih
        rw [ih]

theorem judged_delete_in {rule : FilterRule} {chain : List (FilterEntry φ)}
    (judges : rule.judges = true) :
    judged (chain.eraseP (FilterEntry.isOwn rule)) =
      (judged chain).eraseP (FilterEntry.isOwn rule) := by
  induction chain with
  | nil => rfl
  | cons entry rest ih =>
      by_cases same : entry.isOwn rule = true
      · have top : judged (entry :: rest) = entry :: judged rest := by
          rw [isOwn_iff.mp same, judged_cons_in judges]
        rw [List.eraseP_cons_of_pos same, top, List.eraseP_cons_of_pos same]
      · rw [List.eraseP_cons_of_neg same]
        by_cases kept : entry.judges = true
        · rw [judged, judged, List.filter_cons_of_pos kept, List.filter_cons_of_pos kept,
            List.eraseP_cons_of_neg same]
          exact congrArg (entry :: ·) ih
        · rw [judged, judged, List.filter_cons_of_neg kept, List.filter_cons_of_neg kept]
          exact ih

/-- A rule that is not at the top is deleted below. -/
theorem delete_below {rule : FilterRule} {above : List FilterRule} {chain : List (FilterEntry φ)}
    (absent : rule ∉ above) :
    (above.map FilterEntry.own ++ chain).eraseP (FilterEntry.isOwn rule) =
      above.map FilterEntry.own ++ chain.eraseP (FilterEntry.isOwn rule) := by
  apply List.eraseP_append_right
  intro entry listed same
  rcases List.mem_map.mp listed with ⟨other, member, rfl⟩
  have equal : other = rule := FilterEntry.own.inj (isOwn_iff.mp same)
  exact absent (equal ▸ member)

/-- A rule at the top is deleted there. -/
theorem delete_above {rule : FilterRule} {above : List FilterRule} {chain : List (FilterEntry φ)}
    (listed : rule ∈ above) :
    (above.map FilterEntry.own ++ chain).eraseP (FilterEntry.isOwn rule) =
      (above.erase rule).map FilterEntry.own ++ chain := by
  induction above with
  | nil => cases listed
  | cons top rest ih =>
      by_cases same : top = rule
      · rw [same, List.erase_cons_head]
        exact List.eraseP_cons_of_pos (isOwn_iff.mpr rfl)
      · have below : rule ∈ rest := List.mem_of_ne_of_mem (Ne.symm same) listed
        rw [List.erase_cons_tail (by simpa using same), List.map_cons, List.map_cons,
          List.cons_append, List.cons_append, ← ih below]
        exact List.eraseP_cons_of_neg (by simpa [FilterEntry.isOwn] using same)

end PeerCove
