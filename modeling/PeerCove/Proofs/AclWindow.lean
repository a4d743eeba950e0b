/-
Module: PeerCove.Proofs.AclWindow
Layer: Proofs
Purpose: What the chain lets through between two commands of `sync_acl`, whichever of them fail, and
  when that is no more than the old or the new policy lets through.
Trusted boundary: none
Main exports: FilterHost.NoWindow, FilterHost.ReplacedSafely, FilterHost.Enforced,
  FilterHost.rollback_spec, FilterHost.acl_replacement, FilterHost.acl_replacement_opens
-/
import PeerCove.Proofs.FilterChains

namespace PeerCove

variable {φ : Type}

/-- What the policy in force accepts: everything before there is one. -/
def acceptedBy (policy : Option AclPolicy) (info : PacketInfo) : Bool :=
  policy.all (fun current => (current.evaluate info).action = .allow)

namespace FilterHost

open FilterBackend

/-! ### A call of `sync_acl` -/

/-- The rules a call is about to put in, from the top of the chain. -/
def nextRules (host : FilterHost φ) (policy : AclPolicy) : List ForwardRule :=
  desiredRules host.backend.ifName ((host.backend.aclGeneration + 1) % 2 ^ 64) policy

/-- Those that go in before a command is refused, the lowest first. -/
def rulesPutIn (host : FilterHost φ) (works : Grants) (policy : AclPolicy) : List ForwardRule :=
  Console.accepted (fun place rule => works place (insertForward rule)) 0
    (host.nextRules policy).reverse

/-- The rules in force are none of those a call is about to put in. -/
def Renumbered (host : FilterHost φ) (policy : AclPolicy) : Prop :=
  ∀ rule ∈ host.backend.aclRules, rule ∉ host.nextRules policy

/-- When a call opens nothing: no rule it puts in accepts what both policies deny, and where a
command is refused all the rules put in can be taken out again. -/
structure NoWindow (host : FilterHost φ) (works : Grants) (policy : AclPolicy) : Prop where
  shut : ∀ packet, OpensBetween host.backend.ifName packet →
    Unrouted packet host.filters.forward →
    acceptedBy host.backend.aclPolicy packet.info = false →
    (policy.evaluate packet.info).action = .deny →
    ∀ rule ∈ host.rulesPutIn works policy, rule.target = .accept →
      rule.filterRule.hits packet = false
  undone : (host.rulesPutIn works policy).length ≠ (host.nextRules policy).length →
    ∀ entry ∈ (host.rulesPutIn works policy).zipIdx ((host.rulesPutIn works policy).length + 1),
      works entry.2 (deleteForward entry.1) = true

/-- A call that has nothing to do, or opens nothing. -/
def StaysShut (host : FilterHost φ) (works : Grants) (policy : AclPolicy) : Prop :=
  host.backend.aclPolicy = some policy ∨ host.NoWindow works policy

section
variable (foreign : φ → FilterPacket → Option ForwardTarget) (chainPolicy : ForwardTarget)

/-- Between any two commands the chain accepts of the packets that open a connection only what the
old or the new policy accepts, and after an error its rules are the old ones. -/
structure ReplacedSafely (host : FilterHost φ) (works : Grants) (policy : AclPolicy) : Prop where
  between : ∀ filters ∈ (host.perform (.acl policy) works).moments, ∀ packet,
    OpensBetween host.backend.ifName packet → Unrouted packet filters.forward →
    chainVerdict foreign chainPolicy filters.forward packet = .accept →
    acceptedBy host.backend.aclPolicy packet.info = true ∨
      (policy.evaluate packet.info).action = .allow
  failed : ∀ message, (host.perform (.acl policy) works).result = .error message →
    (host.perform (.acl policy) works).host.filters.forward = host.filters.forward

/-- What the chain accepts, the policy in force accepts. -/
structure Enforced (ifName : String) (host : FilterHost φ) : Prop where
  interface : host.backend.ifName = ifName
  accepts : ∀ packet, OpensBetween ifName packet →
    chainVerdict foreign chainPolicy (judged host.filters.forward) packet = .accept →
    acceptedBy host.backend.aclPolicy packet.info = true

end

/-! ### Rules of the three kinds -/

theorem judges_acl {rule : ForwardRule} {generation : Nat} (own : OfGeneration generation rule) :
    rule.filterRule.judges = true := by
  obtain ⟨label, comment⟩ := own
  have isolation : rule.comment ≠ ISOLATION_COMMENT := by
    rw [comment]
    exact aclComment_ne (by decide)
  have router : rule.comment ≠ ROUTER_COMMENT := by
    rw [comment]
    exact aclComment_ne (by decide)
  simp [FilterRule.judges, ForwardRule.filterRule, isolation, router]

theorem filterRule_injective {one two : ForwardRule} (same : one.filterRule = two.filterRule) :
    one = two := by
  cases one
  cases two
  simpa [ForwardRule.filterRule] using same

/-- A command that touches no rule of a policy and no rule of others. -/
def Beside : FilterCommand → Prop
  | .insert .forward rule => rule.judges = false
  | .delete .forward rule => rule.judges = false
  | _ => True

/-- The judged part of the chain. -/
def Judged (part : List (FilterEntry φ)) (filters : Filters φ) : Prop :=
  judged filters.forward = part

theorem beside_keeps {part : List (FilterEntry φ)} {command : FilterCommand}
    {filters next : Filters φ} (beside : Beside command) (before : Judged part filters)
    (effect : command.apply filters = some next) : Judged part next := by
  cases command with
  | insert chain rule =>
      cases effect
      cases chain with
      | forward => exact (judged_cons_out beside).trans before
      | input => exact before
      | output => exact before
  | delete chain rule =>
      rw [FilterCommand.apply] at effect
      split at effect
      · cases effect
        cases chain with
        | forward => exact (judged_delete_out beside).trans before
        | input => exact before
        | output => exact before
      · cases effect
  | check chain rule =>
      rw [FilterCommand.apply] at effect
      split at effect
      · cases effect
        exact before
      · cases effect
  | outside request =>
      cases effect
      exact before

theorem keeps_judged {part : List (FilterEntry φ)} {commands : List FilterCommand}
    (beside : ∀ command ∈ commands, Beside command) :
    Console.Keeps FilterCommand.apply (Judged part) commands :=
  fun command listed _ _ before effect => beside_keeps (beside command listed) before effect

/-- In FORWARD the isolation only drops. -/
theorem isolationRules_forward {ifName : String} {ip : Ipv4Addr} {rule : FilterRule}
    (listed : (.forward, rule) ∈ isolationRules ifName ip) : rule.judges = false := by
  simp only [isolationRules, List.mem_cons, Prod.mk.injEq, List.not_mem_nil, or_false] at listed
  rcases listed with ⟨-, rfl⟩ | ⟨-, rfl⟩ | ⟨other, -⟩ | ⟨other, -⟩ | ⟨other, -⟩ | ⟨other, -⟩
  · rfl
  · rfl
  all_goals cases other

theorem isolationInserts_beside (ifName : String) (ips : List Ipv4Addr) :
    ∀ command ∈ ips.flatMap (isolationInserts ifName), Beside command := by
  intro command listed
  rcases List.mem_flatMap.mp listed with ⟨ip, _, listed⟩
  rcases List.mem_map.mp listed with ⟨⟨chain, rule⟩, member, rfl⟩
  cases chain with
  | forward => exact isolationRules_forward member
  | input => exact trivial
  | output => exact trivial

theorem isolationDeletes_beside (ifName : String) (ips : List Ipv4Addr) :
    ∀ command ∈ ips.flatMap (isolationDeletes ifName), Beside command := by
  intro command listed
  rcases List.mem_flatMap.mp listed with ⟨ip, _, listed⟩
  rcases List.mem_map.mp listed with ⟨⟨chain, rule⟩, member, rfl⟩
  cases chain with
  | forward => exact isolationRules_forward member
  | input => exact trivial
  | output => exact trivial

theorem routerRule_judges (src dst : Ipv4Net) : (routerRule src dst).judges = false := rfl

/-! ### The rules go in -/

/-- The effect of a command that succeeds. -/
def effectOf (command : FilterCommand) (filters : Filters φ) : Filters φ :=
  (command.apply filters).getD filters

theorem insertForward_possible (rules : List ForwardRule) :
    ∀ command ∈ rules.map insertForward, ∀ filters : Filters φ,
      command.apply filters = some (effectOf command filters) := by
  intro command listed filters
  rcases List.mem_map.mp listed with ⟨rule, _, rfl⟩
  rfl

/-- Rules put in one after the other stand on top of the chain, last first. -/
theorem effects_insertForward (rules : List ForwardRule) (filters : Filters φ) :
    Console.effects effectOf (rules.map insertForward) filters =
      { filters with
        forward := (rules.reverse.map ForwardRule.filterRule).map .own ++ filters.forward } := by
  induction rules generalizing filters with
  | nil => rfl
  | cons rule rest ih =>
      have first : effectOf (insertForward rule) filters =
          { filters with forward := .own rule.filterRule :: filters.forward } := rfl
      calc Console.effects effectOf ((rule :: rest).map insertForward) filters
          = Console.effects effectOf (rest.map insertForward)
              (effectOf (insertForward rule) filters) := rfl
        _ = _ := by
          rw [ih, first]
          simp

/-! ### The rules come out again -/

/-- Some of the given rules stand on top of the chain. -/
def Above (rules : List FilterRule) (base : List (FilterEntry φ)) (filters : Filters φ) : Prop :=
  ∃ top, top ⊆ rules ∧ filters.forward = top.map .own ++ base

theorem delete_granted {works : Grants} {rule : ForwardRule} {top : List FilterRule}
    {base : List (FilterEntry φ)} {session : FilterSession φ}
    (stands : session.state.forward = top.map .own ++ base) (listed : rule.filterRule ∈ top)
    (granted : works session.issued (deleteForward rule) = true) :
    (Console.command FilterCommand.apply works (deleteForward rule) session).2.state =
      { session.state with forward := (top.erase rule.filterRule).map .own ++ base } := by
  have there : (session.state.chain .forward).any (FilterEntry.isOwn rule.filterRule) = true := by
    rw [List.any_eq_true]
    refine ⟨.own rule.filterRule, ?_, isOwn_iff.mpr rfl⟩
    change _ ∈ session.state.forward
    rw [stands]
    exact List.mem_append_left _ (List.mem_map_of_mem listed)
  have effect : (deleteForward rule).apply session.state =
      some { session.state with forward := (top.erase rule.filterRule).map .own ++ base } := by
    rw [deleteForward, FilterCommand.apply, if_pos there, Filters.onChain, stands,
      delete_above listed]
  simp only [Console.command, Console.attempt, granted, if_true, effect, Option.getD_some]

theorem delete_refused {works : Grants} {rule : ForwardRule} {session : FilterSession φ}
    (refused : works session.issued (deleteForward rule) = false) :
    (Console.command FilterCommand.apply works (deleteForward rule) session).2.state =
      session.state := by
  simp [Console.command, Console.attempt, refused]

/-- How many of the commands that take rules out again are granted. -/
def takenOut (works : Grants) (place : Nat) (rules : List ForwardRule) : Nat :=
  (rules.zipIdx place).countP (fun entry => works entry.2 (deleteForward entry.1))

/-- Every command that is granted takes one rule out, whichever of several equal ones. -/
theorem rollback_spec (works : Grants) {rules : List ForwardRule} {top : List FilterRule}
    {base : List (FilterEntry φ)} {session : FilterSession φ}
    (stands : session.state.forward = top.map .own ++ base)
    (within : (rules.map ForwardRule.filterRule).Subperm top) :
    ∃ left, (Console.each FilterCommand.apply works (rules.map deleteForward)
          session).state.forward = left.map .own ++ base ∧ left ⊆ top ∧
      left.length + takenOut works session.issued rules = top.length ∧
      session.Passes (Above top base)
        (Console.each FilterCommand.apply works (rules.map deleteForward) session) := by
  induction rules generalizing top session with
  | nil => exact ⟨top, stands, fun _ listed => listed, rfl, .refl⟩
  | cons rule rest ih =>
      have listed : rule.filterRule ∈ top := within.subset List.mem_cons_self
      have issued : (Console.command FilterCommand.apply works (deleteForward rule)
          session).2.issued = session.issued + 1 := rfl
      have each : Console.each FilterCommand.apply works ((rule :: rest).map deleteForward)
          session = Console.each FilterCommand.apply works (rest.map deleteForward)
            (Console.command FilterCommand.apply works (deleteForward rule) session).2 := rfl
      cases granted : works session.issued (deleteForward rule) with
      | true =>
          have state := delete_granted stands listed granted
          have rest_within : (rest.map ForwardRule.filterRule).Subperm
              (top.erase rule.filterRule) := by
            have erased := within.erase rule.filterRule
            rwa [List.map_cons, List.erase_cons_head] at erased
          obtain ⟨left, final, among, count, passes⟩ := ih (congrArg Filters.forward state)
            rest_within
          have smaller : top.erase rule.filterRule ⊆ top := List.erase_subset
          rw [each]
          refine ⟨left, final, List.Subset.trans among smaller, ?_, ?_⟩
          · have one := List.length_erase_of_mem listed
            have some := List.length_pos_of_mem listed
            rw [issued] at count
            rw [takenOut, List.zipIdx_cons, List.countP_cons, if_pos granted]
            rw [takenOut] at count
            omega
          · refine Console.Session.Passes.trans ⟨[_], rfl, ?_⟩ (passes.imp ?_)
            · intro filters seen
              rw [List.mem_singleton.mp seen]
              exact ⟨_, smaller, congrArg Filters.forward state⟩
            · rintro filters ⟨part, inside, stands⟩
              exact ⟨part, List.Subset.trans inside smaller, stands⟩
      | false =>
          have state := delete_refused (φ := φ) granted
          have rest_within : (rest.map ForwardRule.filterRule).Subperm top :=
            (List.sublist_cons_self _ _).subperm.trans within
          obtain ⟨left, final, among, count, passes⟩ := ih
            ((congrArg Filters.forward state).trans stands) rest_within
          rw [each]
          refine ⟨left, final, among, ?_, ?_⟩
          · rw [issued] at count
            rw [takenOut, List.zipIdx_cons, List.countP_cons, if_neg (by simp [granted])]
            exact count
          · refine Console.Session.Passes.trans ⟨[_], rfl, ?_⟩ passes
            intro filters seen
            rw [List.mem_singleton.mp seen]
            exact ⟨top, fun _ member => member, (congrArg Filters.forward state).trans stands⟩

/-! ### What a call does -/

section
variable {host : FilterHost φ} {works : Grants} {policy : AclPolicy}

/-- The session once rules have gone in. -/
def putIn (host : FilterHost φ) (works : Grants) (policy : AclPolicy) : FilterSession φ :=
  (Console.inOrder FilterCommand.apply works
    ((host.nextRules policy).reverse.map insertForward) { state := host.filters }).2

theorem putIn_spec (host : FilterHost φ) (works : Grants) (policy : AclPolicy) :
    Console.inOrder FilterCommand.apply works ((host.nextRules policy).reverse.map insertForward)
        { state := host.filters } =
      (((host.rulesPutIn works policy).map insertForward,
        decide ((host.rulesPutIn works policy).length = (host.nextRules policy).length)),
        host.putIn works policy) ∧
    (host.putIn works policy).state.forward =
      ((host.rulesPutIn works policy).reverse.map ForwardRule.filterRule).map .own ++
        host.filters.forward ∧
    ((host.rulesPutIn works policy).length ≠ (host.nextRules policy).length →
      (host.putIn works policy).issued = (host.rulesPutIn works policy).length + 1) := by
  obtain ⟨result, final, places⟩ := Console.inOrder_accepted works { state := host.filters }
    (insertForward_possible (host.nextRules policy).reverse)
  rw [Console.accepted_map] at result final places
  rw [effects_insertForward] at final
  rw [List.length_map, List.length_map, List.length_reverse] at result places
  refine ⟨result, congrArg Filters.forward final, fun some => ?_⟩
  rw [putIn, places some, Nat.zero_add]
  rfl

theorem putIn_seen (host : FilterHost φ) (works : Grants) (policy : AclPolicy) :
    Console.Session.Passes
        (Above ((host.rulesPutIn works policy).map ForwardRule.filterRule) host.filters.forward)
        { state := host.filters } (host.putIn works policy) ∧
      ∀ sofar, sofar ≠ [] → sofar <+: host.rulesPutIn works policy →
        ∃ filters ∈ (host.putIn works policy).seen, filters.forward =
          (sofar.reverse.map ForwardRule.filterRule).map .own ++ host.filters.forward := by
  obtain ⟨passes, complete⟩ := Console.inOrder_seen works { state := host.filters }
    (insertForward_possible (host.nextRules policy).reverse)
  rw [Console.accepted_map] at passes complete
  refine ⟨passes.imp ?_, fun sofar some isPrefix => ?_⟩
  · rintro filters ⟨sofar, isPrefix, rfl⟩
    obtain ⟨rules, below, rfl⟩ : ∃ rules, rules <+: host.rulesPutIn works policy ∧
        sofar = rules.map insertForward := by
      refine ⟨(host.rulesPutIn works policy).take sofar.length, List.take_prefix _ _, ?_⟩
      rw [List.map_take]
      exact List.prefix_iff_eq_take.mp isPrefix
    rw [effects_insertForward]
    refine ⟨rules.reverse.map ForwardRule.filterRule, ?_, rfl⟩
    intro image listed
    rcases List.mem_map.mp listed with ⟨rule, member, rfl⟩
    exact List.mem_map_of_mem (below.subset (List.mem_reverse.mp member))
  · have seen := complete (sofar.map insertForward) (by simpa using some)
      (isPrefix.map insertForward)
    rw [effects_insertForward] at seen
    exact ⟨_, seen, rfl⟩

theorem perform_same (current : host.backend.aclPolicy = some policy) :
    host.perform (.acl policy) works = { result := .ok (), host := host, moments := [] } := by
  simp only [perform, syncAcl, if_pos current]

theorem rolledBack_insertForward (rules : List ForwardRule) :
    (rules.map insertForward).map rolledBack = rules.map deleteForward := by
  rw [List.map_map]
  rfl

/-- A command is refused: what went in is taken out. -/
theorem perform_refused (other : host.backend.aclPolicy ≠ some policy)
    (refused : (host.rulesPutIn works policy).length ≠ (host.nextRules policy).length) :
    ∃ message backend, host.perform (.acl policy) works =
        { result := .error message
          host := { backend := backend
                    filters := (Console.each FilterCommand.apply works
                      ((host.rulesPutIn works policy).map deleteForward)
                      (host.putIn works policy)).state }
          moments := (Console.each FilterCommand.apply works
            ((host.rulesPutIn works policy).map deleteForward) (host.putIn works policy)).seen } ∧
      backend.ifName = host.backend.ifName ∧ backend.aclPolicy = host.backend.aclPolicy ∧
      backend.isolatedIps = host.backend.isolatedIps := by
  have spec := (putIn_spec host works policy).1
  rw [decide_eq_false refused, nextRules] at spec
  refine ⟨"ACL v2 ルールを設定できません。iptables が必要です (sudo apt install iptables)",
    { host.backend with aclGeneration := (host.backend.aclGeneration + 1) % 2 ^ 64 }, ?_, rfl, rfl,
    rfl⟩
  simp only [perform, syncAcl, if_neg other, spec, rolledBack_insertForward]

/-- Nothing is refused: the old rules come out, and the isolation goes to the top. -/
theorem perform_replaced (other : host.backend.aclPolicy ≠ some policy)
    (complete : (host.rulesPutIn works policy).length = (host.nextRules policy).length) :
    ∃ backend : FilterBackend, host.perform (.acl policy) works =
        { result := .ok ()
          host := { backend := backend
                    filters := (backend.reassertIsolationTop works
                      (Console.each FilterCommand.apply works
                        (host.backend.aclRules.map deleteForward)
                        (host.putIn works policy))).state }
          moments := (backend.reassertIsolationTop works
            (Console.each FilterCommand.apply works (host.backend.aclRules.map deleteForward)
              (host.putIn works policy))).seen } ∧
      backend.ifName = host.backend.ifName ∧ backend.aclPolicy = some policy ∧
      backend.isolatedIps = host.backend.isolatedIps := by
  have spec := (putIn_spec host works policy).1
  rw [decide_eq_true complete, nextRules] at spec
  refine ⟨{ host.backend with
      aclGeneration := (host.backend.aclGeneration + 1) % 2 ^ 64
      aclRules := host.nextRules policy
      aclPolicy := some policy }, ?_, rfl, rfl, rfl⟩
  simp only [perform, syncAcl, if_neg other, spec, nextRules]

theorem rulesPutIn_initial : host.rulesPutIn works policy <+: (host.nextRules policy).reverse :=
  Console.accepted_initial _ _ _

theorem rulesPutIn_judges {image : FilterRule}
    (listed : image ∈ (host.rulesPutIn works policy).map ForwardRule.filterRule) :
    image.judges = true := by
  rcases List.mem_map.mp listed with ⟨rule, member, rfl⟩
  have next : rule ∈ host.nextRules policy := List.mem_reverse.mp (rulesPutIn_initial.subset member)
  exact judges_acl (desiredRules_generation _ policy rule next)

theorem judged_above {top : List FilterRule} {base : List (FilterEntry φ)}
    (judges : ∀ rule ∈ top, rule.judges = true) :
    judged (top.map .own ++ base) = top.map .own ++ judged base := by
  rw [judged, List.filter_append, List.filter_eq_self.mpr]
  · rfl
  · intro entry listed
    rcases List.mem_map.mp listed with ⟨rule, member, rfl⟩
    exact judges rule member

/-- All rules go in: the whole new policy stands on top of the chain. -/
theorem putIn_complete
    (complete : (host.rulesPutIn works policy).length = (host.nextRules policy).length) :
    (host.putIn works policy).state.forward =
      ((host.nextRules policy).map ForwardRule.filterRule).map .own ++ host.filters.forward := by
  have whole : host.rulesPutIn works policy = (host.nextRules policy).reverse :=
    rulesPutIn_initial.eq_of_length (by rw [complete, List.length_reverse])
  rw [(putIn_spec host works policy).2.1, whole, List.reverse_reverse]

/-- What happens after the rules of a call have gone in, when none was refused. -/
def Topped (rules : List ForwardRule) (filters : Filters φ) : Prop :=
  ∃ rest, judged filters.forward = (rules.map ForwardRule.filterRule).map .own ++ rest

theorem deleteForward_keeps {old new : List ForwardRule} (fresh : ∀ rule ∈ old, rule ∉ new) :
    Console.Keeps FilterCommand.apply (Topped (φ := φ) new) (old.map deleteForward) := by
  intro command listed filters next topped effect
  rcases List.mem_map.mp listed with ⟨rule, member, rfl⟩
  obtain ⟨rest, part⟩ := topped
  have absent : rule.filterRule ∉ new.map ForwardRule.filterRule := by
    intro same
    rcases List.mem_map.mp same with ⟨other, there, equal⟩
    exact fresh rule member (filterRule_injective equal ▸ there)
  rw [deleteForward, FilterCommand.apply] at effect
  split at effect
  · cases effect
    by_cases judges : rule.filterRule.judges = true
    · exact ⟨_, by
        rw [Filters.onChain, judged_delete_in judges, part, delete_below absent]⟩
    · rw [Bool.not_eq_true] at judges
      exact ⟨rest, (judged_delete_out judges).trans part⟩
  · cases effect

theorem reassert_keeps (works : Grants) (backend : FilterBackend) {part : List (FilterEntry φ)}
    {session : FilterSession φ} (before : Judged part session.state) :
    session.Passes (Judged part) (backend.reassertIsolationTop works session) ∧
      Judged part (backend.reassertIsolationTop works session).state := by
  unfold reassertIsolationTop
  split
  · exact ⟨.refl, before⟩
  · have out := Console.each_passes works
      (keeps_judged (isolationDeletes_beside backend.ifName backend.isolatedIps)) before
    have back := Console.each_passes works
      (keeps_judged (isolationInserts_beside backend.ifName backend.isolatedIps)) out.2
    exact ⟨out.1.trans back.1, back.2⟩

/-- The old rules come out and the isolation moves under the new policy. -/
theorem replaced_passes (backend : FilterBackend)
    (complete : (host.rulesPutIn works policy).length = (host.nextRules policy).length)
    (renumbered : host.Renumbered policy) :
    (host.putIn works policy).Passes (Topped (host.nextRules policy))
        (backend.reassertIsolationTop works (Console.each FilterCommand.apply works
          (host.backend.aclRules.map deleteForward) (host.putIn works policy))) ∧
      Topped (host.nextRules policy) (backend.reassertIsolationTop works
        (Console.each FilterCommand.apply works (host.backend.aclRules.map deleteForward)
          (host.putIn works policy))).state := by
  have judges : ∀ rule ∈ (host.nextRules policy).map ForwardRule.filterRule,
      rule.judges = true := by
    intro image listed
    rcases List.mem_map.mp listed with ⟨rule, member, rfl⟩
    exact judges_acl (desiredRules_generation _ policy rule member)
  have start : Topped (host.nextRules policy) (host.putIn works policy).state :=
    ⟨_, by rw [putIn_complete complete, judged_above judges]⟩
  have out := Console.each_passes works (deleteForward_keeps renumbered) start
  obtain ⟨rest, part⟩ := out.2
  have top := reassert_keeps works backend part
  exact ⟨out.1.trans (top.1.imp fun filters same => ⟨rest, same⟩), ⟨rest, top.2⟩⟩

/-! ### When nothing is opened -/

variable {foreign : φ → FilterPacket → Option ForwardTarget} {chainPolicy : ForwardTarget}
  {ifName : String}

theorem topped_accepts {filters : Filters φ} {packet : FilterPacket}
    (topped : Topped (host.nextRules policy) filters)
    (opens : OpensBetween host.backend.ifName packet)
    (accepts : chainVerdict foreign chainPolicy (judged filters.forward) packet = .accept) :
    (policy.evaluate packet.info).action = .allow := by
  obtain ⟨rest, part⟩ := topped
  rw [part] at accepts
  exact accepted_by_policy opens accepts

/-- While some of the new rules stand over the old ones. -/
theorem above_accepts {filters : Filters φ} {packet : FilterPacket}
    (enforced : host.Enforced foreign chainPolicy ifName)
    (noWindow : host.NoWindow works policy)
    (above : Above ((host.rulesPutIn works policy).map ForwardRule.filterRule)
      host.filters.forward filters)
    (opens : OpensBetween host.backend.ifName packet)
    (unrouted : Unrouted packet filters.forward)
    (accepts : chainVerdict foreign chainPolicy filters.forward packet = .accept) :
    acceptedBy host.backend.aclPolicy packet.info = true ∨
      (policy.evaluate packet.info).action = .allow := by
  obtain ⟨top, among, stands⟩ := above
  have judgedAccepts := accept_judged unrouted accepts
  rw [stands, judged_above (fun rule listed => rulesPutIn_judges (among listed))] at judgedAccepts
  rw [stands] at unrouted
  have unroutedBelow : Unrouted packet host.filters.forward :=
    fun rule listed => unrouted rule (List.mem_append_right _ listed)
  by_contra neither
  rw [not_or, Bool.not_eq_true] at neither
  obtain ⟨oldDenies, newDenies⟩ := neither
  have denies : (policy.evaluate packet.info).action = .deny := by
    cases action : (policy.evaluate packet.info).action with
    | allow => exact absurd action newDenies
    | deny => rfl
  have refuses : ∀ rule ∈ top, rule.target = .accept → rule.hits packet = false := by
    intro image listed target
    rcases List.mem_map.mp (among listed) with ⟨rule, member, rfl⟩
    exact noWindow.shut packet opens unroutedBelow oldDenies denies rule member target
  have old := enforced.accepts packet (enforced.interface ▸ opens)
    (accept_below refuses judgedAccepts)
  rw [old] at oldDenies
  cases oldDenies

/-- After a refusal all that went in is taken out exactly when every command for it is granted. -/
theorem rolled_back
    (refused : (host.rulesPutIn works policy).length ≠ (host.nextRules policy).length) :
    (host.putIn works policy).Passes
        (Above ((host.rulesPutIn works policy).map ForwardRule.filterRule) host.filters.forward)
        (Console.each FilterCommand.apply works
          ((host.rulesPutIn works policy).map deleteForward) (host.putIn works policy)) ∧
      ((Console.each FilterCommand.apply works
          ((host.rulesPutIn works policy).map deleteForward)
          (host.putIn works policy)).state.forward = host.filters.forward ↔
        ∀ entry ∈ (host.rulesPutIn works policy).zipIdx
            ((host.rulesPutIn works policy).length + 1),
          works entry.2 (deleteForward entry.1) = true) := by
  have stands := (putIn_spec host works policy).2.1
  have issued := (putIn_spec host works policy).2.2 refused
  have same : ((host.rulesPutIn works policy).map ForwardRule.filterRule).Perm
      ((host.rulesPutIn works policy).reverse.map ForwardRule.filterRule) :=
    (List.reverse_perm _).symm.map _
  obtain ⟨left, final, _, count, passes⟩ := rollback_spec works stands same.subperm
  rw [issued, takenOut, List.length_map, List.length_reverse] at count
  refine ⟨passes.imp ?_, ?_⟩
  · rintro filters ⟨top, among, stands⟩
    exact ⟨top, fun rule listed => same.symm.subset (among listed), stands⟩
  · have none_left : (Console.each FilterCommand.apply works
        ((host.rulesPutIn works policy).map deleteForward)
        (host.putIn works policy)).state.forward = host.filters.forward ↔ left = [] := by
      rw [final, List.append_left_eq_self, List.map_eq_nil_iff]
    rw [none_left, ← List.countP_eq_length, List.length_zipIdx, ← List.length_eq_zero_iff]
    omega

/-- A moment of a call that is not refused. -/
def Underway (host : FilterHost φ) (works : Grants) (policy : AclPolicy) (filters : Filters φ) :
    Prop :=
  Above ((host.rulesPutIn works policy).map ForwardRule.filterRule) host.filters.forward filters ∨
    Topped (host.nextRules policy) filters

theorem replacedSafely_of_noWindow (enforced : host.Enforced foreign chainPolicy ifName)
    (noWindow : host.NoWindow works policy) (renumbered : host.Renumbered policy)
    (other : host.backend.aclPolicy ≠ some policy) :
    host.ReplacedSafely foreign chainPolicy works policy := by
  by_cases complete : (host.rulesPutIn works policy).length = (host.nextRules policy).length
  · obtain ⟨backend, performed, -⟩ := perform_replaced other complete
    refine ⟨?_, ?_⟩
    · intro filters seen packet opens unrouted accepts
      rw [performed] at seen
      have passes := (putIn_seen host works policy).1.imp
        (fun _ above => (Or.inl above : host.Underway works policy _))
      have later := (replaced_passes backend complete renumbered).1.imp
        (fun _ topped => (Or.inr topped : host.Underway works policy _))
      rcases (passes.trans later).all rfl filters seen with above | topped
      · exact above_accepts enforced noWindow above opens unrouted accepts
      · exact .inr (topped_accepts topped opens (accept_judged unrouted accepts))
    · intro message error
      rw [performed] at error
      cases error
  · obtain ⟨message, backend, performed, -⟩ := perform_refused other complete
    have back := rolled_back complete
    refine ⟨?_, ?_⟩
    · intro filters seen packet opens unrouted accepts
      rw [performed] at seen
      have above := ((putIn_seen host works policy).1.trans
        back.1).all rfl filters seen
      exact above_accepts enforced noWindow above opens unrouted accepts
    · intro message error
      rw [performed]
      exact back.2.mpr (noWindow.undone complete)

theorem replacedSafely_same (current : host.backend.aclPolicy = some policy) :
    host.ReplacedSafely foreign chainPolicy works policy := by
  refine ⟨?_, ?_⟩
  · intro filters seen
    rw [perform_same current] at seen
    cases seen
  · intro message error
    rw [perform_same current] at error
    cases error

/-! ### When something is opened -/

/-- What is seen while the rules go in is seen in the whole call. -/
theorem putIn_seen_perform (other : host.backend.aclPolicy ≠ some policy) {filters : Filters φ}
    (seen : filters ∈ (host.putIn works policy).seen) :
    filters ∈ (host.perform (.acl policy) works).moments := by
  have anything (requests : List FilterCommand) (session : FilterSession φ) :
      session.Passes (fun _ => True)
        (Console.each FilterCommand.apply works requests session) :=
    (Console.each_passes works (fun _ _ _ _ _ _ => trivial) trivial).1
  by_cases complete : (host.rulesPutIn works policy).length = (host.nextRules policy).length
  · obtain ⟨backend, performed, -⟩ := perform_replaced other complete
    rw [performed]
    dsimp only
    unfold reassertIsolationTop
    split
    · exact (anything _ _).seen seen
    · exact (anything _ _).seen ((anything _ _).seen ((anything _ _).seen seen))
  · obtain ⟨message, backend, performed, -⟩ := perform_refused other complete
    rw [performed]
    exact (anything _ _).seen seen

theorem noWindow_of_replacedSafely (other : host.backend.aclPolicy ≠ some policy)
    (safe : host.ReplacedSafely foreign chainPolicy works policy) :
    host.NoWindow works policy := by
  refine ⟨?_, ?_⟩
  · intro packet opens unrouted oldDenies newDenies rule listed target
    by_contra hit
    rw [Bool.not_eq_false] at hit
    -- the moment at which the rule has just gone in
    obtain ⟨before, after, split⟩ := List.append_of_mem listed
    have isPrefix : before ++ [rule] <+: host.rulesPutIn works policy :=
      ⟨after, by rw [split, List.append_assoc]; rfl⟩
    obtain ⟨filters, seen, stands⟩ :=
      (putIn_seen host works policy).2 (before ++ [rule]) (by simp) isPrefix
    rw [List.reverse_append, List.reverse_singleton, List.singleton_append] at stands
    have accepts : chainVerdict foreign chainPolicy filters.forward packet = .accept := by
      rw [stands, List.map_cons, List.map_cons, List.cons_append, chainVerdict_own, if_pos hit]
      exact target
    have stillUnrouted : Unrouted packet filters.forward := by
      intro image member comment
      rw [stands] at member
      rcases List.mem_append.mp member with own | below
      · rcases List.mem_map.mp own with ⟨_, member, same⟩
        cases same
        have among : image ∈ (host.rulesPutIn works policy).map ForwardRule.filterRule := by
          rcases List.mem_map.mp member with ⟨source, inside, rfl⟩
          refine List.mem_map_of_mem (isPrefix.subset ?_)
          simpa using (List.mem_cons.mp inside).symm
        have judges := rulesPutIn_judges among
        simp [FilterRule.judges, comment] at judges
      · exact unrouted image below comment
    rcases safe.between filters (putIn_seen_perform other seen) packet opens stillUnrouted accepts
      with old | new
    · rw [old] at oldDenies
      cases oldDenies
    · rw [new] at newDenies
      cases newDenies
  · intro refused
    obtain ⟨message, backend, performed, -⟩ := perform_refused other refused
    have restored := safe.failed message (by rw [performed])
    rw [performed] at restored
    exact (rolled_back refused).2.mp restored

/-! ### Other calls -/

variable {backend : FilterBackend} {part : List (FilterEntry φ)} {session : FilterSession φ}

theorem each_judged (works : Grants) {commands : List FilterCommand}
    (beside : ∀ command ∈ commands, Beside command) (before : Judged part session.state) :
    Judged part (Console.each FilterCommand.apply works commands session).state :=
  (Console.each_passes works (keeps_judged beside) before).2

theorem inOrder_judged (works : Grants) {commands : List FilterCommand}
    (beside : ∀ command ∈ commands, Beside command) (before : Judged part session.state) :
    Judged part (Console.inOrder FilterCommand.apply works commands session).2.state :=
  (Console.inOrder_passes works session ((keeps_judged beside).accepted _) before).2

theorem command_judged (works : Grants) (command : FilterCommand) (beside : Beside command)
    (before : Judged part session.state) :
    Judged part (Console.command FilterCommand.apply works command session).2.state :=
  (Console.command_passes works session (fun _ effect => beside_keeps beside before effect)
    before).2

/-- A call that leaves the policy and the judged part of the chain as they are. -/
def LeavesPolicy (part : List (FilterEntry φ)) (backend after : FilterBackend)
    (session : FilterSession φ) : Prop :=
  after.toLinuxBackend = backend.toLinuxBackend ∧ Judged part session.state

theorem clearIsolation_leaves (works : Grants) (backend : FilterBackend)
    (before : Judged part session.state) :
    LeavesPolicy part backend (backend.clearIsolation works session).1
      (backend.clearIsolation works session).2 :=
  ⟨rfl, each_judged works (isolationDeletes_beside _ _) before⟩

theorem isolateEach_leaves (works : Grants) (ips : List Ipv4Addr) (backend : FilterBackend)
    (before : Judged part session.state) :
    LeavesPolicy part backend (isolateEach works ips backend session).2.1
      (isolateEach works ips backend session).2.2 := by
  induction ips generalizing backend session with
  | nil => exact ⟨rfl, before⟩
  | cons ip rest ih =>
      have inserts : ∀ command ∈ isolationInserts backend.ifName ip, Beside command := by
        intro command listed
        exact isolationInserts_beside backend.ifName [ip] command (by simpa using listed)
      have inserted := inOrder_judged works inserts before
      unfold isolateEach
      dsimp only
      split
      · rename_i done
        rw [done] at inserted
        exact ih _ inserted
      · rename_i done
        rw [done] at inserted
        exact clearIsolation_leaves works _ inserted

theorem syncIsolation_leaves (works : Grants) (isolated : List Ipv4Addr)
    (before : Judged part session.state) :
    LeavesPolicy part backend (backend.syncIsolation works isolated session).2.1
      (backend.syncIsolation works isolated session).2.2 := by
  unfold syncIsolation
  split
  · exact ⟨rfl, before⟩
  · have cleared := clearIsolation_leaves works backend before
    have isolated := isolateEach_leaves works (isolationTargets isolated)
      (backend.clearIsolation works session).1 cleared.2
    exact ⟨isolated.1.trans cleared.1, isolated.2⟩

theorem removeSubnets_beside (virt : Ipv4Net) (gone : List (Ipv4Net × Bool)) :
    ∀ command ∈ removeSubnets virt gone, Beside command := by
  intro command listed
  rcases List.mem_flatMap.mp listed with ⟨entry, _, listed⟩
  rcases List.mem_append.mp listed with listed | listed
  · split at listed
    · rw [List.mem_singleton.mp listed]
      exact trivial
    · cases listed
  · rcases List.mem_pair.mp listed with rfl | rfl
    · exact routerRule_judges _ _
    · exact routerRule_judges _ _

theorem clearRouter_leaves (works : Grants) (backend : FilterBackend)
    (before : Judged part session.state) :
    LeavesPolicy part backend (backend.clearRouter works session).1
      (backend.clearRouter works session).2 := by
  unfold clearRouter
  split
  · exact ⟨rfl, before⟩
  · exact ⟨rfl, each_judged works (removeSubnets_beside _ _) before⟩

theorem allowForward_judged (works : Grants) (src dst : Ipv4Net)
    (before : Judged part session.state) :
    Judged part (allowForward works src dst session).2.state := by
  have checked := command_judged works (.check .forward (routerRule src dst)) trivial before
  unfold allowForward
  split
  · rename_i done
    rw [done] at checked
    exact checked
  · rename_i done
    rw [done] at checked
    exact command_judged works _ (routerRule_judges src dst) checked

theorem masquerade_judged (works : Grants) (virt subnet : Ipv4Net) (snat : Bool)
    (before : Judged part session.state) :
    Judged part (masquerade works virt subnet snat session).2.state := by
  have checked := command_judged works (.outside (.natCheck virt subnet)) trivial before
  unfold masquerade
  split
  · split
    · rename_i done
      rw [done] at checked
      exact checked
    · rename_i done
      rw [done] at checked
      exact command_judged works _ trivial checked
  · exact before

theorem openSubnet_judged (works : Grants) (virt subnet : Ipv4Net) (snat : Bool)
    (before : Judged part session.state) :
    Judged part (openSubnet works virt subnet snat session).2.state := by
  have beside : ∀ command ∈ [FilterCommand.outside (.routeGet subnet),
      .outside .tunnelForwarding, .outside (.lanForwarding subnet)], Beside command := by
    simp [Beside]
  have prepared := inOrder_judged works beside before
  unfold openSubnet
  split
  · rename_i done
    rw [done] at prepared
    exact prepared
  · rename_i ready done
    rw [done] at prepared
    have one := allowForward_judged works virt subnet prepared
    split
    · rename_i done
      rw [done] at one
      exact one
    · rename_i done
      rw [done] at one
      have two := allowForward_judged works subnet virt one
      split
      · rename_i done
        rw [done] at two
        exact two
      · rename_i done
        rw [done] at two
        have translated := masquerade_judged works virt subnet snat two
        split
        · rename_i done
          rw [done] at translated
          exact translated
        · rename_i done
          rw [done] at translated
          exact translated

theorem openSubnets_leaves (works : Grants) (virt : Ipv4Net) (snat inserted : Bool)
    (subnets : List Ipv4Net) (backend : FilterBackend) (before : Judged part session.state) :
    LeavesPolicy part backend (openSubnets works virt snat subnets inserted backend session).2.1
      (openSubnets works virt snat subnets inserted backend session).2.2 := by
  induction subnets generalizing inserted backend session with
  | nil => exact ⟨rfl, before⟩
  | cons subnet rest ih =>
      rw [openSubnets]
      split
      · exact ih inserted backend before
      · have opened := openSubnet_judged works virt subnet snat before
        split
        · rename_i done
          rw [done] at opened
          exact ⟨rfl, opened⟩
        · rename_i done
          rw [done] at opened
          exact ih _ _ opened

theorem withdrawSubnets_leaves (works : Grants) (subnets : List Ipv4Net)
    (backend : FilterBackend) (before : Judged part session.state) :
    LeavesPolicy part backend (backend.withdrawSubnets works subnets session).1
      (backend.withdrawSubnets works subnets session).2 := by
  unfold withdrawSubnets
  split
  · exact ⟨rfl, before⟩
  · exact ⟨rfl, each_judged works (removeSubnets_beside _ _) before⟩

theorem syncSubnetRouter_leaves (works : Grants) (virt : Ipv4Net) (subnets : List Ipv4Net)
    (snat : Bool) (before : Judged part session.state) :
    LeavesPolicy part backend (backend.syncSubnetRouter works virt subnets snat session).2.1
      (backend.syncSubnetRouter works virt subnets snat session).2.2 := by
  have withdrawn := withdrawSubnets_leaves works subnets backend before
  have cleared := clearRouter_leaves works (backend.withdrawSubnets works subnets session).1
    withdrawn.2
  have opened := openSubnets_leaves works virt snat false subnets
    ((backend.withdrawSubnets works subnets session).1.routedFrom virt) withdrawn.2
  unfold syncSubnetRouter
  dsimp only
  split
  · exact ⟨cleared.1.trans withdrawn.1, cleared.2⟩
  · split
    · rename_i done
      rw [done] at opened
      exact ⟨opened.1.trans withdrawn.1, opened.2⟩
    · rename_i done
      rw [done] at opened
      exact ⟨opened.1.trans withdrawn.1, opened.2⟩
    · rename_i done
      rw [done] at opened
      exact ⟨opened.1.trans withdrawn.1, (reassert_keeps works _ opened.2).2⟩

end

/-! ### Runs -/

/-- A step that opens nothing: a policy that is in force, or one that is replaced without a window
by rules the old ones are not among. -/
def KeepsShut (taken : Step) (host : FilterHost φ) : Prop :=
  match taken.call with
  | .acl policy =>
      host.backend.aclPolicy = some policy ∨
        (host.NoWindow taken.works policy ∧ host.Renumbered policy)
  | .isolate _ => True
  | .route _ _ _ => True

section
variable {foreign : φ → FilterPacket → Option ForwardTarget} {chainPolicy : ForwardTarget}
  {ifName : String} {host next : FilterHost φ}

theorem up_enforced (ifName : String) (filters : Filters φ) :
    (up ifName filters).Enforced foreign chainPolicy ifName where
  interface := rfl
  accepts := fun _ _ _ => rfl

/-- A call that leaves the policy alone leaves it in force. -/
theorem Enforced.left (enforced : host.Enforced foreign chainPolicy ifName)
    {after : FilterBackend} {session : FilterSession φ}
    (leaves : LeavesPolicy (judged host.filters.forward) host.backend after session) :
    ({ backend := after, filters := session.state } : FilterHost φ).Enforced foreign chainPolicy
      ifName := by
  obtain ⟨same, part⟩ := leaves
  refine ⟨(congrArg LinuxBackend.ifName same).trans enforced.interface, ?_⟩
  intro packet opens accepts
  rw [part] at accepts
  rw [show after.aclPolicy = host.backend.aclPolicy from congrArg LinuxBackend.aclPolicy same]
  exact enforced.accepts packet opens accepts

theorem acl_enforced (enforced : host.Enforced foreign chainPolicy ifName) {works : Grants}
    {policy : AclPolicy}
    (shut : host.backend.aclPolicy = some policy ∨
      (host.NoWindow works policy ∧ host.Renumbered policy)) :
    (host.perform (.acl policy) works).host.Enforced foreign chainPolicy ifName := by
  by_cases current : host.backend.aclPolicy = some policy
  · rw [perform_same current]
    exact enforced
  · obtain ⟨noWindow, renumbered⟩ := shut.resolve_left current
    by_cases complete : (host.rulesPutIn works policy).length = (host.nextRules policy).length
    · obtain ⟨backend, performed, sameIf, applied, -⟩ := perform_replaced current complete
      rw [performed]
      refine ⟨sameIf.trans enforced.interface, ?_⟩
      intro packet opens accepts
      have allowed := topped_accepts (replaced_passes backend complete renumbered).2
        (enforced.interface.symm ▸ opens) accepts
      change acceptedBy backend.aclPolicy packet.info = true
      rw [applied]
      exact decide_eq_true allowed
    · obtain ⟨message, backend, performed, sameIf, applied, -⟩ := perform_refused current complete
      rw [performed]
      refine ⟨sameIf.trans enforced.interface, ?_⟩
      intro packet opens accepts
      change acceptedBy backend.aclPolicy packet.info = true
      rw [applied]
      have restored := (rolled_back complete).2.mpr (noWindow.undone complete)
      dsimp only at accepts
      rw [restored] at accepts
      exact enforced.accepts packet opens accepts

theorem step_enforced (taken : Step) (enforced : host.Enforced foreign chainPolicy ifName)
    (shut : KeepsShut taken host) (happens : step taken host = some next) :
    next.Enforced foreign chainPolicy ifName := by
  cases happens
  obtain ⟨call, works⟩ := taken
  cases call with
  | acl policy => exact acl_enforced enforced shut
  | isolate isolated => exact enforced.left (syncIsolation_leaves works isolated rfl)
  | route virt subnets snat =>
      exact enforced.left (syncSubnetRouter_leaves works virt subnets snat rfl)

theorem run_enforced (foreign : φ → FilterPacket → Option ForwardTarget)
    (chainPolicy : ForwardTarget) {filters : Filters φ} {steps : List Step}
    (shut : Runs.Along step KeepsShut steps (up ifName filters))
    (reached : Runs.run step steps (up ifName filters) = some host) :
    host.Enforced foreign chainPolicy ifName :=
  Runs.run_invariant (fun host => host.Enforced foreign chainPolicy ifName)
    (fun taken _ _ enforced meets happens => step_enforced taken enforced meets happens)
    (up_enforced ifName filters) shut reached

end

/-- After any run that opened nothing, the next call of `sync_acl` lets nothing through that both
policies deny, and undoes itself when it fails, if it opens nothing; and only then. -/
theorem acl_replacement (foreign : φ → FilterPacket → Option ForwardTarget)
    (chainPolicy : ForwardTarget) (ifName : String) (filters : Filters φ) (steps : List Step)
    (host : FilterHost φ) (reached : Runs.run step steps (up ifName filters) = some host)
    (shut : Runs.Along step KeepsShut steps (up ifName filters)) (policy : AclPolicy)
    (works : Grants) :
    (KeepsShut { call := .acl policy, works := works } host →
        host.ReplacedSafely foreign chainPolicy works policy) ∧
      (host.ReplacedSafely foreign chainPolicy works policy → host.StaysShut works policy) := by
  have enforced := run_enforced foreign chainPolicy shut reached
  constructor
  · intro keeps
    by_cases current : host.backend.aclPolicy = some policy
    · exact replacedSafely_same current
    · obtain ⟨noWindow, renumbered⟩ := keeps.resolve_left current
      exact replacedSafely_of_noWindow enforced noWindow renumbered current
  · intro safe
    by_cases current : host.backend.aclPolicy = some policy
    · exact .inl current
    · exact .inr (noWindow_of_replacedSafely current safe)

/-- The web server is opened on a fresh host, then nothing is asked for. -/
def bareFilters : Filters Empty where
  forward := []
  input := []
  output := []

def grantAll : Grants := fun _ _ => true

theorem acl_replacement_web :
    ∃ host, Runs.run step [{ call := .acl LinuxHost.webPolicy, works := grantAll }]
        (up "pc0" bareFilters) = some host ∧
      (KeepsShut { call := .acl LinuxHost.openPolicy, works := grantAll } host →
        host.ReplacedSafely (fun rule _ => nomatch rule) .drop grantAll LinuxHost.openPolicy) := by
  have opened : (up "pc0" bareFilters).NoWindow grantAll LinuxHost.webPolicy := by
    refine ⟨fun _ _ _ denied => ?_, fun refused => absurd rfl refused⟩
    cases denied
  have shut : Runs.Along step KeepsShut [{ call := .acl LinuxHost.webPolicy, works := grantAll }]
      (up "pc0" bareFilters) :=
    ⟨.inr ⟨opened, fun rule listed => absurd listed List.not_mem_nil⟩, fun _ _ => trivial⟩
  exact ⟨_, rfl, (acl_replacement (fun rule _ => nomatch rule) .drop "pc0" bareFilters _ _ rfl
    shut LinuxHost.openPolicy grantAll).1⟩

/-- Nothing is allowed, then the web server, except from one member. -/
def closedPolicy : AclPolicy where
  default := .deny
  rules := []

def exceptOnePolicy : AclPolicy where
  default := .deny
  rules := [
    { id := "except"
      action := .deny
      source := [Ipv4Net.host 0x0A630003#32]
      destination := [Ipv4Net.host 0x0A630005#32]
      protocol := .any
      ports := [] },
    { id := "web"
      action := .allow
      source := []
      destination := [Ipv4Net.host 0x0A630005#32]
      protocol := .any
      ports := [] }]

def exceptedPacket : FilterPacket where
  info := { src := 0x0A630003#32, dst := 0x0A630005#32, protocol := 6, dstPort := some 443 }
  srcPort := some 40000
  inIf := some "pc0"
  outIf := some "pc0"
  reply := false

def webRule : ForwardRule :=
  aclRule "pc0"
    { id := "web"
      action := .allow
      source := []
      destination := [Ipv4Net.host 0x0A630005#32]
      protocol := .any
      ports := [] }
    EVERYWHERE (Ipv4Net.host 0x0A630005#32) none (aclComment 2 "web")

/-- The rule that allows is in force before the rule above it that denies. -/
theorem acl_replacement_opens :
    ∃ host, Runs.run step [{ call := .acl closedPolicy, works := grantAll }]
        (up "pc0" bareFilters) = some host ∧
      ¬ host.ReplacedSafely (fun rule _ => nomatch rule) .drop grantAll exceptOnePolicy := by
  refine ⟨_, rfl, fun safe => ?_⟩
  have noWindow := noWindow_of_replacedSafely (by decide) safe
  have unrouted : Unrouted exceptedPacket
      ((up "pc0" bareFilters).perform (.acl closedPolicy) grantAll).host.filters.forward := by
    intro rule listed comment
    have none : ((up "pc0" bareFilters).perform (.acl closedPolicy)
        grantAll).host.filters.forward.all (fun
          | .own rule => rule.comment ≠ ROUTER_COMMENT
          | .foreign _ => true) = true := by decide
    have other := List.all_eq_true.mp none _ listed
    exact absurd comment (of_decide_eq_true other)
  have listed : webRule ∈ ((up "pc0" bareFilters).perform (.acl closedPolicy)
      grantAll).host.rulesPutIn grantAll exceptOnePolicy := by decide
  have quiet := noWindow.shut exceptedPacket { enters := rfl, leaves := rfl, opens := rfl }
    unrouted (by decide) (by decide) webRule listed rfl
  have hit : webRule.filterRule.hits exceptedPacket = true := by decide
  rw [hit] at quiet
  cases quiet

end FilterHost

end PeerCove
