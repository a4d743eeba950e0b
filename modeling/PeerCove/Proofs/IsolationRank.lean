/-
Module: PeerCove.Proofs.IsolationRank
Layer: Proofs
Purpose: That the isolation of an address outranks every other rule between any two commands, in
  runs in which no call moves it while the address stays isolated.
Trusted boundary: none
Main exports: Concerns, Shielded, Shielded.drops, FilterHost.Calm, FilterHost.HoldsIsolation,
  FilterHost.isolation_outranks, FilterHost.isolation_outranked
-/
import PeerCove.Proofs.AclWindow

namespace PeerCove

variable {φ : Type} {ifName : String} {ip : Ipv4Addr}

/-! ### Packets of an isolated address -/

/-- The packets the isolation of an address is about: those forwarded from it or to it, and those
between it and the host except for the control port. -/
def Concerns (ifName : String) (ip : Ipv4Addr) : FilterChain → FilterPacket → Prop
  | .forward, packet =>
      (packet.inIf = some ifName ∧ packet.info.src = ip) ∨
        (packet.outIf = some ifName ∧ packet.info.dst = ip)
  | .input, packet =>
      packet.inIf = some ifName ∧ packet.info.src = ip ∧
        ¬ (packet.info.protocol = 6 ∧ packet.info.dstPort = some CONTROL_PORT)
  | .output, packet =>
      packet.outIf = some ifName ∧ packet.info.dst = ip ∧
        ¬ (packet.info.protocol = 6 ∧ packet.srcPort = some CONTROL_PORT)

/-- A rule that accepts none of these packets. -/
def Spares (ifName : String) (ip : Ipv4Addr) (chain : FilterChain) (rule : FilterRule) : Prop :=
  rule.target = .accept → ∀ packet, Concerns ifName ip chain packet → rule.hits packet = false

/-- A rule of the isolation with nothing above it that accepts packets of the address. -/
def Guarded (ifName : String) (ip : Ipv4Addr) (chain : FilterChain) (rule : FilterRule)
    (entries : List (FilterEntry φ)) : Prop :=
  ∃ (above : List FilterRule) (below : List (FilterEntry φ)),
    entries = above.map .own ++ .own rule :: below ∧
      ∀ other ∈ above, Spares ifName ip chain other

/-- Every rule by which an address is cut off is guarded. -/
def Shielded (ifName : String) (ip : Ipv4Addr) (filters : Filters φ) : Prop :=
  ∀ chain rule, (chain, rule) ∈ isolationRules ifName ip → rule.target = .drop →
    Guarded ifName ip chain rule (filters.chain chain)

theorem maskMatches_host (one two : Ipv4Addr) :
    maskMatches one (Ipv4Net.host two) = true ↔ one = two := by
  rw [maskMatches_eq, Ipv4Net.host_contains]

/-- Each of these packets is hit by a rule that drops. -/
theorem concerns_hit {chain : FilterChain} {packet : FilterPacket}
    (concerns : Concerns ifName ip chain packet) :
    ∃ rule, (chain, rule) ∈ isolationRules ifName ip ∧ rule.target = .drop ∧
      rule.hits packet = true := by
  cases chain with
  | forward =>
      rcases concerns with ⟨enters, source⟩ | ⟨leaves, destination⟩
      · refine ⟨_, List.mem_cons_self, rfl, ?_⟩
        simp [FilterRule.hits, enters, source, maskMatches_host, protocolMatches]
      · refine ⟨_, List.mem_cons_of_mem _ List.mem_cons_self, rfl, ?_⟩
        simp [FilterRule.hits, leaves, destination, maskMatches_host, protocolMatches]
  | input =>
      obtain ⟨enters, source, -⟩ := concerns
      refine ⟨_, List.mem_cons_of_mem _ (List.mem_cons_of_mem _ List.mem_cons_self), rfl, ?_⟩
      simp [FilterRule.hits, enters, source, maskMatches_host, protocolMatches]
  | output =>
      obtain ⟨leaves, destination, -⟩ := concerns
      refine ⟨_, List.mem_cons_of_mem _ (List.mem_cons_of_mem _ (List.mem_cons_of_mem _
        List.mem_cons_self)), rfl, ?_⟩
      simp [FilterRule.hits, leaves, destination, maskMatches_host, protocolMatches]

/-- Behind the shield every packet of the address is dropped. -/
theorem Shielded.drops {filters : Filters φ} (shielded : Shielded ifName ip filters)
    (foreign : φ → FilterPacket → Option ForwardTarget) (chainPolicy : ForwardTarget)
    {chain : FilterChain} {packet : FilterPacket} (concerns : Concerns ifName ip chain packet) :
    chainVerdict foreign chainPolicy (filters.chain chain) packet = .drop := by
  obtain ⟨rule, listed, drops, hit⟩ := concerns_hit concerns
  obtain ⟨above, below, stands, spares⟩ := shielded chain rule listed drops
  rw [stands]
  clear stands
  induction above with
  | nil => rw [List.map_nil, List.nil_append, chainVerdict_own, if_pos hit, drops]
  | cons top rest ih =>
      rw [List.map_cons, List.cons_append, chainVerdict_own]
      split
      · rename_i topHit
        cases target : top.target with
        | drop => rfl
        | accept =>
            rw [spares top List.mem_cons_self target packet concerns] at topHit
            cases topHit
      · exact ih (fun other listed => spares other (List.mem_cons_of_mem _ listed))

/-! ### What keeps the shield up -/

section
variable {chain : FilterChain} {rule other : FilterRule} {entries : List (FilterEntry φ)}

theorem Guarded.insert (guarded : Guarded ifName ip chain rule entries)
    (spares : Spares ifName ip chain other) :
    Guarded ifName ip chain rule (.own other :: entries) := by
  obtain ⟨above, below, rfl, spared⟩ := guarded
  refine ⟨other :: above, below, rfl, ?_⟩
  intro top listed
  rcases List.mem_cons.mp listed with rfl | listed
  · exact spares
  · exact spared top listed

theorem Guarded.delete (guarded : Guarded ifName ip chain rule entries) (different : rule ≠ other) :
    Guarded ifName ip chain rule (entries.eraseP (FilterEntry.isOwn other)) := by
  obtain ⟨above, below, rfl, spared⟩ := guarded
  by_cases listed : other ∈ above
  · exact ⟨above.erase other, below, delete_above listed,
      fun top member => spared top (List.mem_of_mem_erase member)⟩
  · have passes : (FilterEntry.own rule : FilterEntry φ).isOwn other ≠ true :=
      fun same => different (FilterEntry.own.inj (isOwn_iff.mp same))
    refine ⟨above, below.eraseP (FilterEntry.isOwn other), ?_, spared⟩
    rw [delete_below listed, List.eraseP_cons_of_neg passes]

end

/-- A command that leaves the isolation of an address alone. -/
def Harmless (ifName : String) (ip : Ipv4Addr) : FilterCommand → Prop
  | .insert chain rule => Spares ifName ip chain rule
  | .delete chain rule => (chain, rule) ∉ isolationRules ifName ip
  | .check _ _ => True
  | .outside _ => True

@[simp] theorem chain_onChain_same (filters : Filters φ)
    (change : List (FilterEntry φ) → List (FilterEntry φ)) (chain : FilterChain) :
    (filters.onChain change chain).chain chain = change (filters.chain chain) := by
  cases chain <;> rfl

theorem chain_onChain_other (filters : Filters φ)
    (change : List (FilterEntry φ) → List (FilterEntry φ)) {one two : FilterChain}
    (different : two ≠ one) : (filters.onChain change one).chain two = filters.chain two := by
  cases one <;> cases two <;> first | rfl | exact absurd rfl different

theorem harmless_keeps {command : FilterCommand} {filters next : Filters φ}
    (harmless : Harmless ifName ip command) (before : Shielded ifName ip filters)
    (effect : command.apply filters = some next) : Shielded ifName ip next := by
  cases command with
  | insert changed inserted =>
      cases effect
      intro chain rule listed drops
      have guarded := before chain rule listed drops
      by_cases same : chain = changed
      · subst same
        rw [chain_onChain_same]
        exact guarded.insert harmless
      · rw [chain_onChain_other filters _ same]
        exact guarded
  | delete changed deleted =>
      rw [FilterCommand.apply] at effect
      split at effect
      · cases effect
        intro chain rule listed drops
        have guarded := before chain rule listed drops
        by_cases same : chain = changed
        · subst same
          rw [chain_onChain_same]
          exact guarded.delete (fun equal => harmless (equal ▸ listed))
        · rw [chain_onChain_other filters _ same]
          exact guarded
      · cases effect
  | check chain rule =>
      rw [FilterCommand.apply] at effect
      split at effect
      · cases effect
        exact before
      · cases effect
  | outside request =>
      cases effect
      exact before

theorem keeps_shielded {commands : List FilterCommand}
    (harmless : ∀ command ∈ commands, Harmless ifName ip command) :
    Console.Keeps FilterCommand.apply (Shielded (φ := φ) ifName ip) commands :=
  fun command listed _ _ before effect => harmless_keeps (harmless command listed) before effect

/-! ### The commands of the three calls -/

/-- The isolation of any address lets only the control port through. -/
theorem isolation_spares {other : Ipv4Addr} {chain : FilterChain} {rule : FilterRule}
    (listed : (chain, rule) ∈ isolationRules ifName other) : Spares ifName ip chain rule := by
  simp only [isolationRules, List.mem_cons, Prod.mk.injEq, List.not_mem_nil, or_false] at listed
  intro accepts packet concerns
  rcases listed with ⟨-, rfl⟩ | ⟨-, rfl⟩ | ⟨-, rfl⟩ | ⟨-, rfl⟩ | ⟨rfl, rfl⟩ | ⟨rfl, rfl⟩
  · cases accepts
  · cases accepts
  · cases accepts
  · cases accepts
  · obtain ⟨-, -, elsewhere⟩ := concerns
    by_contra hit
    rw [Bool.not_eq_false] at hit
    apply elsewhere
    cases port : packet.info.dstPort with
    | none => simp [FilterRule.hits, port, dportMatches] at hit
    | some port' =>
        simp [FilterRule.hits, port, dportMatches, protocolMatches] at hit
        exact ⟨hit.1.2, congrArg some (UInt16.le_antisymm hit.2.2 hit.2.1)⟩
  · obtain ⟨-, -, elsewhere⟩ := concerns
    by_contra hit
    rw [Bool.not_eq_false] at hit
    apply elsewhere
    cases port : packet.srcPort with
    | none => simp [FilterRule.hits, port, dportMatches] at hit
    | some port' =>
        simp [FilterRule.hits, port, dportMatches, protocolMatches] at hit
        exact ⟨hit.1.2, congrArg some (UInt16.le_antisymm hit.2.2 hit.2.1)⟩

theorem isolationInserts_harmless (ifName : String) (ip other : Ipv4Addr) :
    ∀ command ∈ isolationInserts ifName other, Harmless ifName ip command := by
  intro command listed
  rcases List.mem_map.mp listed with ⟨⟨chain, rule⟩, member, rfl⟩
  exact isolation_spares member

/-- No rule of the isolation is one of a router. -/
theorem isolation_comment {chain : FilterChain} {rule : FilterRule}
    (listed : (chain, rule) ∈ isolationRules ifName ip) : rule.comment = ISOLATION_COMMENT := by
  simp only [isolationRules, List.mem_cons, Prod.mk.injEq, List.not_mem_nil, or_false] at listed
  rcases listed with ⟨-, rfl⟩ | ⟨-, rfl⟩ | ⟨-, rfl⟩ | ⟨-, rfl⟩ | ⟨-, rfl⟩ | ⟨-, rfl⟩
  all_goals rfl

theorem routerRule_harmless (src dst : Ipv4Net) :
    Harmless ifName ip (.delete .forward (routerRule src dst)) := by
  intro listed
  have same : ROUTER_COMMENT = ISOLATION_COMMENT := isolation_comment listed
  exact absurd same (by decide)

theorem removeSubnets_harmless (virt : Ipv4Net) (gone : List (Ipv4Net × Bool)) :
    ∀ command ∈ FilterBackend.removeSubnets virt gone, Harmless ifName ip command := by
  intro command listed
  rcases List.mem_flatMap.mp listed with ⟨entry, _, listed⟩
  rcases List.mem_append.mp listed with listed | listed
  · split at listed
    · rw [List.mem_singleton.mp listed]
      exact trivial
    · cases listed
  · rcases List.mem_pair.mp listed with rfl | rfl
    · exact routerRule_harmless _ _
    · exact routerRule_harmless _ _

/-- The six rules of an address, put in one after the other, cut it off. -/
theorem isolated_shielded (ifName : String) (ip : Ipv4Addr) (filters : Filters φ) :
    Shielded ifName ip
      (Console.effects FilterHost.effectOf (isolationInserts ifName ip) filters) := by
  intro chain rule listed drops
  simp only [isolationRules, List.mem_cons, Prod.mk.injEq, List.not_mem_nil, or_false] at listed
  have spared {chain : FilterChain} {other : FilterRule}
      (member : (chain, other) ∈ isolationRules ifName ip) : Spares ifName ip chain other :=
    isolation_spares member
  rcases listed with ⟨rfl, rfl⟩ | ⟨rfl, rfl⟩ | ⟨rfl, rfl⟩ | ⟨rfl, rfl⟩ | ⟨-, rfl⟩ | ⟨-, rfl⟩
  · refine ⟨[_], _, rfl, ?_⟩
    intro other above
    rw [List.mem_singleton.mp above]
    exact spared (by simp [isolationRules])
  · exact ⟨[], _, rfl, fun other above => absurd above List.not_mem_nil⟩
  · refine ⟨[_], _, rfl, ?_⟩
    intro other above
    rw [List.mem_singleton.mp above]
    exact spared (by simp [isolationRules])
  · refine ⟨[_], _, rfl, ?_⟩
    intro other above
    rw [List.mem_singleton.mp above]
    exact spared (by simp [isolationRules])
  · cases drops
  · cases drops

namespace FilterHost

open FilterBackend

/-! ### Calls that leave the isolation alone -/

/-- The rules of the subnets that a call withdraws. -/
def withdrawnRules (host : FilterHost φ) (subnets : List Ipv4Net) : List FilterRule :=
  match host.backend.router.virtualSubnet with
  | none => []
  | some virt =>
      (host.backend.router.subnets.filter (fun entry => entry.1 ∉ subnets)).flatMap (fun entry =>
        [routerRule virt entry.1, routerRule entry.1 virt])

/-- A rule of a router does not go in: it is there and found, or it is refused. -/
def Settled (works : Grants) (there : FilterRule → Prop) (rule : FilterRule) : Prop :=
  (there rule ∧ ∀ place, works place (.check .forward rule) = true) ∨
    ∀ place, works place (.insert .forward rule) = false

/-- The LAN behind a subnet is not found, or forwarding to it cannot be switched on. -/
def Unreachable (works : Grants) (subnet : Ipv4Net) : Prop :=
  (∀ place, works place (.outside (.routeGet subnet)) = false) ∨
    (∀ place, works place (.outside .tunnelForwarding) = false) ∨
    ∀ place, works place (.outside (.lanForwarding subnet)) = false

/-- No FORWARD rule goes in for any of the subnets. -/
def NothingOpened (works : Grants) (there : FilterRule → Prop) (virt : Ipv4Net) :
    List Ipv4Net → List Ipv4Net → Prop
  | _, [] => True
  | known, subnet :: rest =>
      if subnet ∈ known then NothingOpened works there virt known rest
      else
        Unreachable works subnet ∨
          (Settled works there (routerRule virt subnet) ∧
            Settled works there (routerRule subnet virt) ∧
            NothingOpened works there virt (subnet :: known) rest)

/-- A call that leaves the isolation of the addresses that stay isolated where it is: nothing is
isolated, or nothing is to be done, or all that is isolated is released; or a command is refused
before a rule went in that accepts packets of an isolated address; or no FORWARD rule goes in for a
subnet. -/
def Calm (taken : Step) (host : FilterHost φ) : Prop :=
  host.backend.isolatedIps = [] ∨
    match taken.call with
    | .acl policy =>
        host.backend.aclPolicy = some policy ∨
          ((host.rulesPutIn taken.works policy).length ≠ (host.nextRules policy).length ∧
            ∀ ip ∈ host.backend.isolatedIps, ∀ rule ∈ host.rulesPutIn taken.works policy,
              Spares host.backend.ifName ip .forward rule.filterRule)
    | .isolate isolated =>
        isolationTargets isolated = host.backend.isolatedIps ∨
          ∀ ip ∈ isolationTargets isolated, ip ∉ host.backend.isolatedIps
    | .route virt subnets _ =>
        NothingOpened taken.works
          (fun rule => .own rule ∈ host.filters.forward ∧ rule ∉ host.withdrawnRules subnets)
          virt (host.backend.router.subnets.map Prod.fst) subnets

/-- Every address that is isolated is cut off. -/
structure CutOff (ifName : String) (host : FilterHost φ) : Prop where
  interface : host.backend.ifName = ifName
  shielded : ∀ ip ∈ host.backend.isolatedIps, Shielded ifName ip host.filters

/-- Between any two commands of a call, whatever is forwarded from or to an address that is isolated
before and after it is dropped, and whatever passes between it and the host except on the control
port. -/
def HoldsIsolation (foreign : φ → FilterPacket → Option ForwardTarget)
    (chainPolicy : FilterChain → ForwardTarget) (host : FilterHost φ) (taken : Step) : Prop :=
  ∀ ip ∈ host.backend.isolatedIps,
    ip ∈ (host.perform taken.call taken.works).host.backend.isolatedIps →
    ∀ filters ∈ (host.perform taken.call taken.works).moments, ∀ chain packet,
      Concerns host.backend.ifName ip chain packet →
      chainVerdict foreign (chainPolicy chain) (filters.chain chain) packet = .drop

section
variable {host : FilterHost φ} {works : Grants} {backend : FilterBackend}
  {session : FilterSession φ}

/-! ### The isolation of new addresses -/

theorem isolateEach_ips {ips : List Ipv4Addr} {ip : Ipv4Addr}
    (listed : ip ∈ (isolateEach works ips backend session).2.1.isolatedIps) :
    ip ∈ backend.isolatedIps ∨ ip ∈ ips := by
  induction ips generalizing backend session with
  | nil => exact .inl listed
  | cons next rest ih =>
      rw [isolateEach] at listed
      split at listed
      · rcases ih listed with before | later
        · rcases List.mem_append.mp before with before | this
          · exact .inl before
          · exact .inr (List.mem_cons.mpr (.inl (List.mem_singleton.mp this)))
        · exact .inr (List.mem_cons_of_mem _ later)
      · cases listed

theorem isolateEach_interface {ips : List Ipv4Addr} :
    (isolateEach works ips backend session).2.1.ifName = backend.ifName := by
  induction ips generalizing backend session with
  | nil => rfl
  | cons next rest ih =>
      rw [isolateEach]
      split
      · exact ih
      · rfl

/-- Each address is cut off before the next one is looked at. -/
theorem isolateEach_shields {ips : List Ipv4Addr} (interface : backend.ifName = ifName)
    (before : ∀ ip ∈ backend.isolatedIps, Shielded ifName ip session.state) :
    ∀ ip ∈ (isolateEach works ips backend session).2.1.isolatedIps,
      Shielded ifName ip (isolateEach works ips backend session).2.2.state := by
  induction ips generalizing backend session with
  | nil => exact before
  | cons next rest ih =>
      have kept (ip : Ipv4Addr) (shielded : Shielded ifName ip session.state) :=
        (Console.inOrder_passes works session
          ((keeps_shielded (isolationInserts_harmless ifName ip next)).accepted session.issued)
          shielded).2
      have possible : ∀ command ∈ isolationInserts ifName next, ∀ filters : Filters φ,
          command.apply filters = some (effectOf command filters) := by
        intro command listed filters
        rcases List.mem_map.mp listed with ⟨entry, _, rfl⟩
        rfl
      have spec := Console.inOrder_accepted works session possible
      rw [isolateEach, interface]
      split
      · rename_i done
        rw [done] at kept spec
        have whole : Console.accepted works session.issued (isolationInserts ifName next) =
            isolationInserts ifName next :=
          (Console.accepted_initial works _ _).eq_of_length
            (of_decide_eq_true (congrArg (fun pair => pair.1.2) spec.1).symm)
        refine ih interface (fun ip listed => ?_)
        rcases List.mem_append.mp listed with old | new
        · exact kept ip (before ip old)
        · rw [List.mem_singleton.mp new, spec.2.1, whole]
          exact isolated_shielded ifName next session.state
      · intro ip listed
        cases listed

/-! ### Subnets for which nothing goes in -/

/-- The chains are the same all the way. -/
def Still (filters : Filters φ) (session : FilterSession φ) (after : FilterSession φ) : Prop :=
  session.Passes (· = filters) after ∧ after.state = filters

theorem still_inOrder (works : Grants) (session : FilterSession φ) {filters : Filters φ}
    {commands : List FilterCommand}
    (outside : ∀ command ∈ commands, ∃ request, command = .outside request)
    (now : session.state = filters) :
    Still filters session (Console.inOrder FilterCommand.apply works commands session).2 := by
  refine Console.inOrder_passes works session (Console.Keeps.accepted ?_ _) now
  intro command listed state next same effect
  rcases outside command listed with ⟨request, rfl⟩
  cases effect
  exact same

theorem still_refused (session : FilterSession φ) {filters : Filters φ} {command : FilterCommand}
    (refused : works session.issued command = false) (now : session.state = filters) :
    Still filters session (Console.command FilterCommand.apply works command session).2 := by
  have state : (Console.command FilterCommand.apply works command session).2.state =
      session.state := by
    simp [Console.command, Console.attempt, refused]
  refine ⟨⟨[_], rfl, fun seen listed => ?_⟩, state.trans now⟩
  rw [List.mem_singleton.mp listed]
  exact state.trans now

theorem still_reading (works : Grants) {filters : Filters φ} {command : FilterCommand}
    (reads : ∀ next, command.apply filters = some next → next = filters)
    (now : session.state = filters) :
    Still filters session (Console.command FilterCommand.apply works command session).2 := by
  have keep (next : Filters φ) (effect : command.apply session.state = some next) :
      next = filters := reads next (now ▸ effect)
  exact Console.command_passes works session keep now

theorem check_reads (chain : FilterChain) (rule : FilterRule) {filters next : Filters φ}
    (effect : (FilterCommand.check chain rule).apply filters = some next) : next = filters := by
  rw [FilterCommand.apply] at effect
  split at effect
  · exact (Option.some.inj effect).symm
  · cases effect

/-- A settled rule is found, or the call ends here. -/
theorem allowForward_settled (session : FilterSession φ) {src dst : Ipv4Net}
    {filters : Filters φ}
    (settled : Settled works (fun rule => .own rule ∈ filters.forward) (routerRule src dst))
    (now : session.state = filters) :
    Still filters session (allowForward works src dst session).2 ∧
      (allowForward works src dst session).1 ≠ some true := by
  have checked := still_reading works
    (fun next => check_reads .forward (routerRule src dst)) now
  unfold allowForward
  split
  · rename_i done
    rw [done] at checked
    exact ⟨checked, by simp⟩
  · rename_i after done
    rw [done] at checked
    rcases settled with ⟨there, found⟩ | refused
    · -- a rule that is there and looked for is found
      have present : (filters.chain .forward).any (FilterEntry.isOwn (routerRule src dst)) = true :=
        List.any_eq_true.mpr ⟨_, there, isOwn_iff.mpr rfl⟩
      have yes : (Console.command FilterCommand.apply works (.check .forward (routerRule src dst))
          session).1 = true := by
        simp [Console.command, Console.attempt, found, FilterCommand.apply, now, present]
      rw [done] at yes
      cases yes
    · have stays := still_refused after (refused after.issued) checked.2
      have no : (Console.command FilterCommand.apply works
          (.insert .forward (routerRule src dst)) after).1 = false := by
        simp [Console.command, Console.attempt, refused]
      refine ⟨⟨checked.1.trans stays.1, stays.2⟩, ?_⟩
      simp [no]

theorem masquerade_still (works : Grants) (virt subnet : Ipv4Net) (snat : Bool)
    {filters : Filters φ} (now : session.state = filters) :
    Still filters session (masquerade works virt subnet snat session).2 := by
  have reads (request : OutsideCommand) (next : Filters φ)
      (effect : (FilterCommand.outside request).apply filters = some next) : next = filters :=
    (Option.some.inj effect).symm
  have checked := still_reading works (reads (.natCheck virt subnet)) now
  unfold masquerade
  split
  · split
    · rename_i done
      rw [done] at checked
      exact checked
    · rename_i after done
      rw [done] at checked
      have appended := still_reading works (reads (.natAppend virt subnet)) checked.2
      exact ⟨checked.1.trans appended.1, appended.2⟩
  · exact ⟨.refl, now⟩

theorem unreachable_refused (session : FilterSession φ) {subnet : Ipv4Net}
    (unreachable : Unreachable works subnet) :
    (Console.inOrder FilterCommand.apply works
      [.outside (.routeGet subnet), .outside .tunnelForwarding, .outside (.lanForwarding subnet)]
      session).1.2 = false := by
  have possible : ∀ command ∈ [FilterCommand.outside (.routeGet subnet),
      .outside .tunnelForwarding, .outside (.lanForwarding subnet)], ∀ filters : Filters φ,
      command.apply filters = some (effectOf command filters) := by
    intro command listed filters
    simp only [List.mem_cons, List.not_mem_nil, or_false] at listed
    rcases listed with rfl | rfl | rfl <;> rfl
  rw [(Console.inOrder_accepted works session possible).1]
  apply decide_eq_false
  rcases unreachable with route | tunnel | lan
  · simp [Console.accepted, route]
  · simp only [Console.accepted, tunnel]
    split <;> simp
  · simp only [Console.accepted, lan]
    split
    · split <;> simp
    · simp

/-- A subnet that cannot be reached, or whose two rules are settled: no rule goes in. -/
theorem openSubnet_still {virt subnet : Ipv4Net} (snat : Bool) {filters : Filters φ}
    (quiet : Unreachable works subnet ∨
      (Settled works (fun rule => .own rule ∈ filters.forward) (routerRule virt subnet) ∧
        Settled works (fun rule => .own rule ∈ filters.forward) (routerRule subnet virt)))
    (now : session.state = filters) :
    Still filters session (openSubnet works virt subnet snat session).2 ∧
      (∀ one, (openSubnet works virt subnet snat session).1 = .ok one →
        one = false ∧ ¬ Unreachable works subnet) := by
  have outside : ∀ command ∈ [FilterCommand.outside (.routeGet subnet),
      .outside .tunnelForwarding, .outside (.lanForwarding subnet)],
      ∃ request, command = .outside request := by
    intro command listed
    simp only [List.mem_cons, List.not_mem_nil, or_false] at listed
    rcases listed with rfl | rfl | rfl <;> exact ⟨_, rfl⟩
  have prepared := still_inOrder works session outside now
  have blocked (unreachable : Unreachable works subnet) := unreachable_refused session unreachable
  unfold openSubnet
  split
  · rename_i done
    rw [done] at prepared
    exact ⟨prepared, fun one same => by cases same⟩
  · rename_i ready done
    rw [done] at prepared blocked
    have reachable : ¬ Unreachable works subnet := fun unreachable => by
      cases blocked unreachable
    obtain ⟨there, back⟩ := quiet.resolve_left reachable
    have first := allowForward_settled ready there prepared.2
    split
    · rename_i done
      rw [done] at first
      exact ⟨⟨prepared.1.trans first.1.1, first.1.2⟩, fun one same => by cases same⟩
    · rename_i one middle done
      rw [done] at first
      have second := allowForward_settled middle back first.1.2
      split
      · rename_i done
        rw [done] at second
        exact ⟨⟨prepared.1.trans (first.1.1.trans second.1.1), second.1.2⟩,
          fun one same => by cases same⟩
      · rename_i two last done
        rw [done] at second
        have translated := masquerade_still works virt subnet snat second.1.2
        have neither : (one || two) = false := by
          cases one <;> cases two
          · rfl
          all_goals first | exact absurd rfl first.2 | exact absurd rfl second.2
        split
        · rename_i done
          rw [done] at translated
          exact ⟨⟨prepared.1.trans (first.1.1.trans (second.1.1.trans translated.1)),
            translated.2⟩, fun one same => by cases same⟩
        · rename_i done
          rw [done] at translated
          refine ⟨⟨prepared.1.trans (first.1.1.trans (second.1.1.trans translated.1)),
            translated.2⟩, fun result same => ?_⟩
          cases same
          exact ⟨neither, reachable⟩

/-- The loop puts nothing in where nothing is opened. -/
theorem openSubnets_still {virt : Ipv4Net} (snat : Bool) {known subnets : List Ipv4Net}
    {filters : Filters φ} (backend : FilterBackend) (session : FilterSession φ)
    (quiet : NothingOpened works (fun rule => .own rule ∈ filters.forward) virt known subnets)
    (same : ∀ subnet ∈ subnets, subnet ∈ known ↔
      backend.router.subnets.any (fun entry => entry.1 = subnet) = true)
    (now : session.state = filters) :
    Still filters session (openSubnets works virt snat subnets false backend session).2.2 ∧
      (openSubnets works virt snat subnets false backend session).1 ≠ .ok true := by
  induction subnets generalizing known backend session with
  | nil => exact ⟨⟨.refl, now⟩, by simp [openSubnets]⟩
  | cons subnet rest ih =>
      have here := same subnet List.mem_cons_self
      rw [NothingOpened] at quiet
      rw [openSubnets]
      by_cases applied : subnet ∈ known
      · rw [if_pos (here.mp applied)]
        rw [if_pos applied] at quiet
        exact ih backend session quiet
          (fun other listed => same other (List.mem_cons_of_mem _ listed)) now
      · rw [if_neg (fun old => applied (here.mpr old))]
        rw [if_neg applied] at quiet
        have opened := openSubnet_still snat
          (quiet.imp id (fun settled => ⟨settled.1, settled.2.1⟩)) now
        split
        · rename_i done
          rw [done] at opened
          exact ⟨opened.1, fun ok => by cases ok⟩
        · rename_i one after done
          rw [done] at opened
          obtain ⟨rfl, reachable⟩ := opened.2 one rfl
          have later := (quiet.resolve_left reachable).2.2
          have grown (other : Ipv4Net) (listed : other ∈ rest) :
              other ∈ subnet :: known ↔ (backend.router.subnets ++ [(subnet, snat)]).any
                (fun entry => entry.1 = other) = true := by
            have before := same other (List.mem_cons_of_mem _ listed)
            have last : (([(subnet, snat)] : List (Ipv4Net × Bool)).any
                (fun entry => entry.1 = other)) = true ↔ other = subnet := by
              simp [eq_comm]
            rw [List.mem_cons, List.any_append, Bool.or_eq_true, before, last, or_comm]
          have rest_still := ih { backend with
            router := { backend.router with
              subnets := backend.router.subnets ++ [(subnet, snat)] } } after later grown opened.1.2
          exact ⟨⟨opened.1.1.trans rest_still.1.1, rest_still.1.2⟩, rest_still.2⟩

/-! ### The addresses stay the same -/

theorem withdrawSubnets_backend (works : Grants) (subnets : List Ipv4Net)
    (backend : FilterBackend) (session : FilterSession φ) :
    (backend.withdrawSubnets works subnets session).1.isolatedIps = backend.isolatedIps ∧
      (backend.withdrawSubnets works subnets session).1.ifName = backend.ifName := by
  unfold withdrawSubnets
  split <;> exact ⟨rfl, rfl⟩

theorem clearRouter_backend (works : Grants) (backend : FilterBackend)
    (session : FilterSession φ) :
    (backend.clearRouter works session).1.isolatedIps = backend.isolatedIps ∧
      (backend.clearRouter works session).1.ifName = backend.ifName := by
  unfold clearRouter
  split <;> exact ⟨rfl, rfl⟩

theorem openSubnets_backend (works : Grants) (virt : Ipv4Net) (snat inserted : Bool)
    (subnets : List Ipv4Net) (backend : FilterBackend) (session : FilterSession φ) :
    (openSubnets works virt snat subnets inserted backend session).2.1.isolatedIps =
        backend.isolatedIps ∧
      (openSubnets works virt snat subnets inserted backend session).2.1.ifName =
        backend.ifName := by
  induction subnets generalizing inserted backend session with
  | nil => exact ⟨rfl, rfl⟩
  | cons subnet rest ih =>
      rw [openSubnets]
      split
      · exact ih _ _ _
      · split
        · exact ⟨rfl, rfl⟩
        · exact ih _ _ _

theorem syncSubnetRouter_backend (works : Grants) (virt : Ipv4Net) (subnets : List Ipv4Net)
    (snat : Bool) (backend : FilterBackend) (session : FilterSession φ) :
    (backend.syncSubnetRouter works virt subnets snat session).2.1.isolatedIps =
        backend.isolatedIps ∧
      (backend.syncSubnetRouter works virt subnets snat session).2.1.ifName = backend.ifName := by
  have withdrawn := withdrawSubnets_backend works subnets backend session
  have cleared := clearRouter_backend works (backend.withdrawSubnets works subnets session).1
    (backend.withdrawSubnets works subnets session).2
  have opened := openSubnets_backend works virt snat false subnets
    ((backend.withdrawSubnets works subnets session).1.routedFrom virt)
    (backend.withdrawSubnets works subnets session).2
  have routed : ((backend.withdrawSubnets works subnets session).1.routedFrom virt).isolatedIps =
      (backend.withdrawSubnets works subnets session).1.isolatedIps := rfl
  have routedIf : ((backend.withdrawSubnets works subnets session).1.routedFrom virt).ifName =
      (backend.withdrawSubnets works subnets session).1.ifName := rfl
  unfold syncSubnetRouter
  dsimp only
  split
  · exact ⟨cleared.1.trans withdrawn.1, cleared.2.trans withdrawn.2⟩
  · split <;> rename_i done <;> rw [done] at opened <;>
      exact ⟨(opened.1.trans routed).trans withdrawn.1, (opened.2.trans routedIf).trans withdrawn.2⟩

theorem perform_acl_backend (host : FilterHost φ) (works : Grants) (policy : AclPolicy) :
    (host.perform (.acl policy) works).host.backend.isolatedIps = host.backend.isolatedIps ∧
      (host.perform (.acl policy) works).host.backend.ifName = host.backend.ifName := by
  by_cases current : host.backend.aclPolicy = some policy
  · rw [perform_same current]
    exact ⟨rfl, rfl⟩
  · by_cases complete : (host.rulesPutIn works policy).length = (host.nextRules policy).length
    · obtain ⟨backend, performed, sameIf, -, ips⟩ := perform_replaced current complete
      rw [performed]
      exact ⟨ips, sameIf⟩
    · obtain ⟨message, backend, performed, sameIf, -, ips⟩ := perform_refused current complete
      rw [performed]
      exact ⟨ips, sameIf⟩

/-! ### One call -/

/-- While a policy goes in and comes out again, what it accepts passes the isolated addresses by. -/
theorem acl_shields {policy : AclPolicy}
    (spares : ∀ rule ∈ host.rulesPutIn works policy, Spares ifName ip .forward rule.filterRule)
    (before : Shielded ifName ip host.filters) :
    Console.Session.Passes (Shielded ifName ip) { state := host.filters }
        (Console.each FilterCommand.apply works
          ((host.rulesPutIn works policy).map deleteForward) (host.putIn works policy)) ∧
      Shielded ifName ip (Console.each FilterCommand.apply works
        ((host.rulesPutIn works policy).map deleteForward) (host.putIn works policy)).state := by
  have inserts : Console.Keeps FilterCommand.apply (Shielded (φ := φ) ifName ip)
      (Console.accepted works 0 ((host.nextRules policy).reverse.map insertForward)) := by
    rw [Console.accepted_map]
    apply keeps_shielded
    intro command listed
    rcases List.mem_map.mp listed with ⟨rule, member, rfl⟩
    exact spares rule member
  have deletes : Console.Keeps FilterCommand.apply (Shielded (φ := φ) ifName ip)
      ((host.rulesPutIn works policy).map deleteForward) := by
    apply keeps_shielded
    intro command listed
    rcases List.mem_map.mp listed with ⟨rule, member, rfl⟩
    intro isolation
    have judges := rulesPutIn_judges (List.mem_map_of_mem (f := ForwardRule.filterRule) member)
    rw [isolationRules_forward isolation] at judges
    cases judges
  have put := Console.inOrder_passes works { state := host.filters } inserts before
  have out := Console.each_passes works deletes put.2
  exact ⟨put.1.trans out.1, out.2⟩

theorem Settled.imp {there known : FilterRule → Prop} (weaker : ∀ rule, there rule → known rule)
    {rule : FilterRule} (settled : Settled works there rule) : Settled works known rule :=
  Or.imp (fun found => ⟨weaker rule found.1, found.2⟩) id settled

theorem NothingOpened.imp {there found : FilterRule → Prop}
    (weaker : ∀ rule, there rule → found rule) {virt : Ipv4Net} {known subnets : List Ipv4Net}
    (quiet : NothingOpened works there virt known subnets) :
    NothingOpened works found virt known subnets := by
  induction subnets generalizing known with
  | nil => exact trivial
  | cons subnet rest ih =>
      rw [NothingOpened] at quiet ⊢
      split
      · rename_i old
        rw [if_pos old] at quiet
        exact ih quiet
      · rename_i new
        rw [if_neg new] at quiet
        rcases quiet with unreachable | ⟨one, two, later⟩
        · exact .inl unreachable
        · exact .inr ⟨one.imp weaker, two.imp weaker, ih later⟩

/-- A rule that is not withdrawn is still there. -/
theorem withdrawSubnets_there {subnets : List Ipv4Net} {rule : FilterRule}
    (there : .own rule ∈ host.filters.forward) (kept : rule ∉ host.withdrawnRules subnets) :
    .own rule ∈ (host.backend.withdrawSubnets works subnets
      { state := host.filters }).2.state.forward := by
  unfold withdrawnRules at kept
  unfold withdrawSubnets
  split
  · exact there
  · rename_i virt current
    rw [current] at kept
    dsimp only at kept ⊢
    have deletes : Console.Keeps FilterCommand.apply
        (fun filters : Filters φ => .own rule ∈ filters.forward)
        (removeSubnets virt (host.backend.router.subnets.filter
          (fun entry => entry.1 ∉ subnets))) := by
      intro command listed filters next before effect
      rcases List.mem_flatMap.mp listed with ⟨entry, gone, listed⟩
      have others (other : FilterRule) (different : rule ≠ other)
          (effect : (FilterCommand.delete .forward other).apply filters = some next) :
          .own rule ∈ next.forward := by
        rw [FilterCommand.apply] at effect
        split at effect
        · cases effect
          refine (List.mem_eraseP_of_neg ?_).mpr before
          exact fun same => different (FilterEntry.own.inj (isOwn_iff.mp same))
        · cases effect
      rcases List.mem_append.mp listed with listed | listed
      · split at listed
        · rw [List.mem_singleton.mp listed] at effect
          cases effect
          exact before
        · cases listed
      · have removed (other : FilterRule)
            (one : other ∈ [routerRule virt entry.1, routerRule entry.1 virt]) : rule ≠ other := by
          rintro rfl
          exact kept (List.mem_flatMap.mpr ⟨entry, gone, one⟩)
        rcases List.mem_pair.mp listed with rfl | rfl
        · exact others _ (removed _ (by simp)) effect
        · exact others _ (removed _ (by simp)) effect
    have start : (fun filters : Filters φ => .own rule ∈ filters.forward)
        ({ state := host.filters } : FilterSession φ).state := there
    exact (Console.each_passes works deletes start).2

theorem withdrawSubnets_known {subnets : List Ipv4Net} {subnet : Ipv4Net}
    (listed : subnet ∈ subnets) :
    subnet ∈ backend.router.subnets.map Prod.fst ↔
      (backend.withdrawSubnets works subnets session).1.router.subnets.any
        (fun entry => entry.1 = subnet) = true := by
  unfold withdrawSubnets
  split
  · simp
  · simp only [List.any_filter, List.any_eq_true, List.mem_map, Bool.and_eq_true, decide_eq_true_eq]
    constructor
    · rintro ⟨entry, member, rfl⟩
      exact ⟨entry, member, listed, rfl⟩
    · rintro ⟨entry, member, -, rfl⟩
      exact ⟨entry, member, rfl⟩

theorem withdrawSubnets_shields (works : Grants) (subnets : List Ipv4Net)
    (backend : FilterBackend) (session : FilterSession φ)
    (before : Shielded ifName ip session.state) :
    session.Passes (Shielded ifName ip) (backend.withdrawSubnets works subnets session).2 ∧
      Shielded ifName ip (backend.withdrawSubnets works subnets session).2.state := by
  unfold withdrawSubnets
  split
  · exact ⟨.refl, before⟩
  · exact Console.each_passes works (keeps_shielded (removeSubnets_harmless _ _)) before

theorem clearRouter_shields (works : Grants) (backend : FilterBackend)
    (before : Shielded ifName ip session.state) :
    session.Passes (Shielded ifName ip) (backend.clearRouter works session).2 ∧
      Shielded ifName ip (backend.clearRouter works session).2.state := by
  unfold clearRouter
  split
  · exact ⟨.refl, before⟩
  · exact Console.each_passes works (keeps_shielded (removeSubnets_harmless _ _)) before

/-- Where no FORWARD rule goes in, the isolation stays where it is. -/
theorem route_shields {virt : Ipv4Net} {subnets : List Ipv4Net} {snat : Bool}
    (quiet : NothingOpened works
      (fun rule => .own rule ∈ host.filters.forward ∧ rule ∉ host.withdrawnRules subnets)
      virt (host.backend.router.subnets.map Prod.fst) subnets)
    (before : Shielded ifName ip host.filters) :
    Console.Session.Passes (Shielded ifName ip) { state := host.filters }
        (host.backend.syncSubnetRouter works virt subnets snat { state := host.filters }).2.2 ∧
      Shielded ifName ip (host.backend.syncSubnetRouter works virt subnets snat
        { state := host.filters }).2.2.state := by
  have withdrawn := withdrawSubnets_shields works subnets host.backend { state := host.filters }
    before
  have cleared := clearRouter_shields works
    (host.backend.withdrawSubnets works subnets { state := host.filters }).1 withdrawn.2
  have opened := openSubnets_still snat
    ((host.backend.withdrawSubnets works subnets { state := host.filters }).1.routedFrom virt)
    (host.backend.withdrawSubnets works subnets { state := host.filters }).2
    (quiet.imp (fun rule found => withdrawSubnets_there found.1 found.2))
    (fun subnet listed => withdrawSubnets_known listed) rfl
  have still := opened.1.1.imp
    (fun filters same => (same ▸ withdrawn.2 : Shielded ifName ip filters))
  have ending := opened.1.2.symm ▸ withdrawn.2
  unfold syncSubnetRouter
  dsimp only
  split
  · exact ⟨withdrawn.1.trans cleared.1, cleared.2⟩
  · split
    · rename_i done
      rw [done] at still ending
      exact ⟨withdrawn.1.trans still, ending⟩
    · rename_i done
      rw [done] at still ending
      exact ⟨withdrawn.1.trans still, ending⟩
    · rename_i done
      rw [done] at opened
      exact absurd rfl opened.2

/-- What a calm call does to the shield of an address that stays isolated, and after it. -/
theorem calm_shields {taken : Step} (cut : host.CutOff ifName) (calm : Calm taken host) :
    (∀ ip ∈ host.backend.isolatedIps,
        ip ∈ (host.perform taken.call taken.works).host.backend.isolatedIps →
        ∀ filters ∈ (host.perform taken.call taken.works).moments, Shielded ifName ip filters) ∧
      (host.perform taken.call taken.works).host.CutOff ifName := by
  obtain ⟨interface, shielded⟩ := cut
  obtain ⟨call, works⟩ := taken
  cases call with
  | acl policy =>
      have same := perform_acl_backend host works policy
      refine ⟨?_, same.2.trans interface, ?_⟩
      · intro ip listed _ filters seen
        rcases calm with none | current | ⟨refused, spares⟩
        · rw [none] at listed
          cases listed
        · rw [perform_same current] at seen
          cases seen
        · by_cases current : host.backend.aclPolicy = some policy
          · rw [perform_same current] at seen
            cases seen
          · obtain ⟨message, backend, performed, -⟩ := perform_refused current refused
            rw [performed] at seen
            exact (acl_shields (fun rule member => interface ▸ spares ip listed rule member)
              (shielded ip listed)).1.all rfl filters seen
      · intro ip listed
        rw [same.1] at listed
        rcases calm with none | current | ⟨refused, spares⟩
        · rw [none] at listed
          cases listed
        · rw [perform_same current]
          exact shielded ip listed
        · by_cases current : host.backend.aclPolicy = some policy
          · rw [perform_same current]
            exact shielded ip listed
          · obtain ⟨message, backend, performed, -⟩ := perform_refused current refused
            rw [performed]
            exact (acl_shields (fun rule member => interface ▸ spares ip listed rule member)
              (shielded ip listed)).2
  | isolate isolated =>
      by_cases done : isolationTargets isolated = host.backend.isolatedIps
      · have same : host.perform (.isolate isolated) works =
            { result := .ok (), host := host, moments := [] } := by
          simp only [perform, syncIsolation, if_pos done]
        dsimp only
        rw [same]
        exact ⟨fun _ _ _ _ seen => absurd seen List.not_mem_nil, interface, shielded⟩
      · have performed : host.backend.syncIsolation works isolated { state := host.filters } =
            isolateEach works (isolationTargets isolated)
              (host.backend.clearIsolation works { state := host.filters }).1
              (host.backend.clearIsolation works { state := host.filters }).2 := by
          simp only [syncIsolation, if_neg done]
        refine ⟨?_, ?_, ?_⟩
        · intro ip listed stays
          change ip ∈ (host.backend.syncIsolation works isolated
            { state := host.filters }).2.1.isolatedIps at stays
          rw [performed] at stays
          rcases isolateEach_ips stays with old | target
          · cases old
          · rcases calm with none | same | apart
            · rw [none] at listed
              cases listed
            · exact absurd same done
            · exact absurd listed (apart ip target)
        · change (host.backend.syncIsolation works isolated
            { state := host.filters }).2.1.ifName = _
          rw [performed, isolateEach_interface]
          exact interface
        · change ∀ ip ∈ (host.backend.syncIsolation works isolated
              { state := host.filters }).2.1.isolatedIps,
            Shielded ifName ip (host.backend.syncIsolation works isolated
              { state := host.filters }).2.2.state
          rw [performed]
          exact isolateEach_shields interface (fun ip listed => absurd listed List.not_mem_nil)
  | route virt subnets snat =>
      have same := syncSubnetRouter_backend works virt subnets snat host.backend
        { state := host.filters }
      refine ⟨?_, same.2.trans interface, ?_⟩
      · intro ip listed _ filters seen
        rcases calm with none | quiet
        · rw [none] at listed
          cases listed
        · exact (route_shields quiet (shielded ip listed)).1.all rfl filters seen
      · intro ip listed
        rw [show (host.perform (.route virt subnets snat) works).host.backend.isolatedIps =
          host.backend.isolatedIps from same.1] at listed
        rcases calm with none | quiet
        · rw [none] at listed
          cases listed
        · exact (route_shields quiet (shielded ip listed)).2

end

/-! ### Runs -/

theorem up_cutOff (ifName : String) (filters : Filters φ) : (up ifName filters).CutOff ifName where
  interface := rfl
  shielded := fun _ listed => absurd listed List.not_mem_nil

theorem run_cutOff {filters : Filters φ} {steps : List Step} {host : FilterHost φ}
    (calm : Runs.Along step Calm steps (up ifName filters))
    (reached : Runs.run step steps (up ifName filters) = some host) : host.CutOff ifName :=
  Runs.run_invariant (CutOff ifName)
    (fun _ _ _ cut meets happens => by
      cases happens
      exact (calm_shields cut meets).2)
    (up_cutOff ifName filters) calm reached

/-- In every run of calls that leave the isolation where it is, the addresses that stay isolated are
cut off between any two commands, and between two calls all that are isolated. -/
theorem isolation_outranks (foreign : φ → FilterPacket → Option ForwardTarget)
    (chainPolicy : FilterChain → ForwardTarget) (ifName : String) (filters : Filters φ)
    (steps : List Step) (host : FilterHost φ)
    (reached : Runs.run step steps (up ifName filters) = some host)
    (calm : Runs.Along step Calm steps (up ifName filters)) (taken : Step)
    (here : Calm taken host) :
    host.HoldsIsolation foreign chainPolicy taken ∧
      ∀ ip ∈ host.backend.isolatedIps, ∀ chain packet,
        Concerns host.backend.ifName ip chain packet →
        chainVerdict foreign (chainPolicy chain) (host.filters.chain chain) packet = .drop := by
  have cut := run_cutOff calm reached
  have interface := cut.interface
  refine ⟨?_, ?_⟩
  · intro ip listed stays moment seen chain packet concerns
    have shielded := (calm_shields cut here).1 ip listed stays moment seen
    exact shielded.drops foreign (chainPolicy chain) (interface ▸ concerns)
  · intro ip listed chain packet concerns
    exact (cut.shielded ip listed).drops foreign (chainPolicy chain) (interface ▸ concerns)

/-- One address is isolated; a new policy is refused by `iptables`. -/
def waitingIp : Ipv4Addr := 0x0A630009#32

theorem isolation_outranks_refused :
    ∃ host, Runs.run step [{ call := .isolate [waitingIp], works := grantAll }]
        (up "pc0" bareFilters) = some host ∧
      host.HoldsIsolation (fun rule _ => nomatch rule) (fun _ => .accept)
        { call := .acl closedPolicy, works := fun _ _ => false } := by
  have calm : Runs.Along step Calm [{ call := .isolate [waitingIp], works := grantAll }]
      (up "pc0" bareFilters) := ⟨.inl rfl, fun _ _ => trivial⟩
  have refused : Calm { call := .acl closedPolicy, works := fun _ _ => false }
      ((up "pc0" bareFilters).perform (.isolate [waitingIp]) grantAll).host :=
    .inr (.inr ⟨by decide, fun _ _ _ listed => absurd listed List.not_mem_nil⟩)
  exact ⟨_, rfl, (isolation_outranks (fun rule _ => nomatch rule) (fun _ => .accept) "pc0"
    bareFilters _ _ rfl calm _ refused).1⟩

/-- A packet of the address to a service of the host. -/
def waitingPacket : FilterPacket where
  info := { src := waitingIp, dst := 0x0A630001#32, protocol := 6, dstPort := some 22 }
  srcPort := some 40000
  inIf := some "pc0"
  outIf := none
  reply := false

/-- A new policy takes the isolation out before it puts it back. -/
theorem isolation_outranked :
    ∃ host, Runs.run step [{ call := .isolate [waitingIp], works := grantAll }]
        (up "pc0" bareFilters) = some host ∧
      ¬ host.HoldsIsolation (fun rule _ => nomatch rule) (fun _ => .accept)
        { call := .acl closedPolicy, works := grantAll } := by
  refine ⟨_, rfl, fun holds => ?_⟩
  have open_moment : (((up "pc0" bareFilters).perform (.isolate [waitingIp]) grantAll).host.perform
      (.acl closedPolicy) grantAll).moments.any (fun filters =>
        chainVerdict (fun rule _ => nomatch rule) .accept (filters.chain .input) waitingPacket =
          .accept) = true := by decide
  obtain ⟨filters, seen, accepted⟩ := List.any_eq_true.mp open_moment
  have dropped := holds waitingIp (by decide) (by decide) filters seen .input
    waitingPacket ⟨rfl, rfl, by decide⟩
  rw [of_decide_eq_true accepted] at dropped
  cases dropped

end FilterHost

end PeerCove
