/-
Module: PeerCove.Proofs.RelayFragments
Layer: Proofs
Purpose: What the device relays under a policy that denies nothing: every packet but fragments whose
  datagram it does not know.
Trusted boundary: `Tunn::dst_address` finds the destination of a packet of version 4
Main exports: AclPolicy.Unrestricted, Recorded, relayed_completely, relayed_reordered
-/
import PeerCove.Host.RelayDevice
import PeerCove.Proofs.SessionTracker

namespace PeerCove

open Fallible

/-- Nothing is denied. -/
structure AclPolicy.Unrestricted (policy : AclPolicy) : Prop where
  default : policy.default = .allow
  rules : ∀ rule ∈ policy.rules, rule.action ≠ .deny

/-! ### Reading a packet -/

theorem isNonFirstFragment_eq (packet : Packet) :
    isNonFirstFragment packet = .ok (decide (20 ≤ packet.length ∧ packet.byte 0 >>> 4 = 4 ∧
      ¬ packet.IsFirstFragment)) := by
  unfold isNonFirstFragment
  by_cases long : 20 ≤ packet.length
  · have first : packet.IsFirstFragment ↔ packet.word 6 &&& 0x1fff = 0 :=
      and_iff_right (by omega)
    rw [if_pos long, byteAt_inside (by omega), be16At_inside (by omega)]
    change (if packet.byte 0 >>> 4 = 4 then
      Except.ok (decide (packet.word 6 &&& 0x1fff ≠ 0)) else Except.ok false) = _
    by_cases version : packet.byte 0 >>> 4 = 4
    · rw [if_pos version, Except.ok.injEq, decide_eq_decide, first]
      exact ⟨fun later => ⟨long, version, later⟩, fun parts => parts.2.2⟩
    · rw [if_neg version, decide_eq_false (fun parts => version parts.2.1)]
  · rw [if_neg long, decide_eq_false (fun parts => long parts.1)]
    rfl

theorem packetFields_ok (packet : Packet) : ∃ fields, packetFields packet = .ok fields := by
  unfold packetFields
  rw [ipv4Fields_eq, isInitialFragment_eq]
  by_cases whole : packet.IsIpv4
  · rw [if_pos whole]
    by_cases ports : (packet.protocol = 6 ∨ packet.protocol = 17) ∧
        decide packet.IsFirstFragment = true ∧ packet.length ≥ packet.headerLen + 4
    · have read : be16At packet (packet.headerLen + 2) = .ok packet.destinationPort :=
        be16At_inside (by omega)
      refine ⟨some ⟨packet.source, packet.destination, packet.protocol,
        some packet.destinationPort⟩, ?_⟩
      refine (if_pos ports).trans ?_
      rw [read]
      rfl
    · exact ⟨_, if_neg ports⟩
  · rw [if_neg whole]
    exact ⟨none, rfl⟩

theorem evaluateIpv4Packet_ok (policy : AclPolicy) (packet : Packet) :
    ∃ decision, policy.evaluateIpv4Packet packet = .ok decision := by
  obtain ⟨fields, read⟩ := packetFields_ok packet
  unfold AclPolicy.evaluateIpv4Packet
  rw [read]
  cases fields with
  | none => exact ⟨_, rfl⟩
  | some info => exact ⟨_, rfl⟩

theorem AclPolicy.Unrestricted.evaluate {policy : AclPolicy} (unrestricted : policy.Unrestricted)
    (packet : Packet) :
    ∃ decision, policy.evaluateIpv4Packet packet = .ok decision ∧ decision.action = .allow := by
  obtain ⟨fields, read⟩ := packetFields_ok packet
  unfold evaluateIpv4Packet
  rw [read]
  cases fields with
  | none => exact ⟨_, rfl, unrestricted.default⟩
  | some info =>
      have allowed : ∀ rule ∈ policy.rules, rule.action = .allow := by
        intro rule listed
        cases action : rule.action with
        | allow => rfl
        | deny => exact absurd action (unrestricted.rules rule listed)
      refine ⟨_, rfl, ?_⟩
      rw [AclPolicy.evaluate, FirstMatch.pick_comp AclDecision.action,
        FirstMatch.pick_const _ _ .allow _ _ allowed, unrestricted.default, ite_self]

/-- What identifies the datagram of a packet. -/
def Packet.datagram (packet : Packet) : FragmentKey where
  src := packet.source
  dst := packet.destination
  protocol := packet.protocol
  identification := packet.identification

/-- The datagram whose first fragment a packet is, with more to follow. -/
def Packet.headKey (packet : Packet) : Option FragmentKey :=
  if packet.IsIpv4 ∧ packet.IsFirstFragment ∧ packet.HasMore then some packet.datagram else none

theorem headKey_eq_some {packet : Packet} {key : FragmentKey} :
    packet.headKey = some key ↔ packet.IsHeadOf key := by
  unfold Packet.headKey
  constructor
  · intro keyed
    split at keyed
    · next parts =>
        obtain rfl := Option.some.inj keyed
        exact ⟨⟨parts.1, rfl, rfl, rfl, rfl⟩, parts.2⟩
    · cases keyed
  · rintro ⟨⟨whole, src, dst, protocol, identification⟩, parts⟩
    rw [if_pos ⟨whole, parts⟩]
    cases key
    simp only [Packet.datagram, Option.some.injEq, FragmentKey.mk.injEq]
    exact ⟨src, dst, protocol, identification⟩

/-! ### The sessions under a packet -/

namespace AclSessionTracker

variable (sessions : AclSessionTracker) {packet : Packet} {now : Instant}

/-- A head is noted. -/
theorem noteForwardedFragment_head {key : FragmentKey} (head : packet.IsHeadOf key) :
    sessions.noteForwardedFragment packet now = .ok (sessions.insertFragment key now) := by
  have keyed : fragmentKey packet = .ok (some key) := by
    obtain ⟨⟨whole, src, dst, protocol, identification⟩, _⟩ := head
    rw [fragmentKey_eq, if_pos whole]
    cases key
    simp only [Except.ok.injEq, Option.some.injEq, FragmentKey.mk.injEq]
    exact ⟨src, dst, protocol, identification⟩
  unfold noteForwardedFragment
  rw [isInitialFragment_eq, hasMoreFragments_eq, keyed]
  simp only [head.2.1, head.2.2, decide_true]
  rfl

/-- What is no head is not noted. -/
theorem noteForwardedFragment_other (other : packet.headKey = none) :
    sessions.noteForwardedFragment packet now = .ok sessions := by
  obtain ⟨next, ran, rfl | ⟨key, head, _⟩⟩ := sessions.noteForwardedFragment_spec packet now
  · exact ran
  · rw [headKey_eq_some.mpr head] at other
    cases other

theorem allowsFragment_eq (whole : packet.IsIpv4) :
    sessions.allowsFragment packet now =
      .ok (((sessions.removeExpired now).fragments.get? packet.datagram).isSome,
        sessions.removeExpired now) := by
  unfold allowsFragment
  rw [fragmentKey_eq, if_pos whole]
  rfl

theorem observeAllowed_fragments (packet : Packet) (now : Instant) :
    ∃ next, sessions.observeAllowed packet now = .ok next ∧
    next.fragments = (sessions.removeExpired now).fragments := by
  obtain ⟨next, ran, rfl | ⟨key, _, _, rfl⟩⟩ := sessions.observeAllowed_spec packet now
  · exact ⟨_, ran, rfl⟩
  · exact ⟨_, ran, rfl⟩

end AclSessionTracker

/-- The events of one packet, and what it leaves in the table of datagrams. -/
structure SessionsStep (packet : Packet) (now : Instant) (before : AclSessionTracker)
    (passed : Bool) (after : AclSessionTracker) : Prop where
  fragments : after.fragments = (if passed then packet.headKey else none).elim
    (before.removeExpired now).fragments
    (fun key => insertSession (before.removeExpired now).fragments key FRAGMENT_LIFETIME now)
  tracked : ∀ events, TrackerRun events before → (∀ event ∈ events, event.now ≤ now) →
    ∃ newer, TrackerRun (newer ++ events) after ∧ (∀ event ∈ newer, event.now = now) ∧
      ∀ key time, Noted key newer time → passed = true ∧ packet.IsHeadOf key ∧ time = now

/-- A call that notes nothing. -/
theorem not_noted {call : TrackerCall} {now : Nat} {answer : Option Bool}
    (quiet : ∀ packet, call ≠ .noteForwardedFragment packet) {key : FragmentKey} {time : Nat} :
    ¬ Noted key [{ call := call, now := now, answer := answer }] time := by
  rintro ⟨packet, _, _, listed⟩
  rw [List.mem_singleton] at listed
  exact quiet packet (congrArg TrackerEvent.call listed).symm

/-- A packet that passes after a call that cleans up; its head is noted. -/
theorem SessionsStep.noted (packet : Packet) {now : Instant} {before between : AclSessionTracker}
    {call : TrackerCall} {answer : Option Bool}
    (quiet : ∀ packet, call ≠ .noteForwardedFragment packet)
    (called : call.perform before now = .ok (answer, between))
    (cleaned : between.fragments = (before.removeExpired now).fragments) :
    ∃ after, between.noteForwardedFragment packet now = .ok after ∧
      SessionsStep packet now before true after := by
  obtain ⟨after, ran, shape⟩ : ∃ after, between.noteForwardedFragment packet now = .ok after ∧
      after.fragments = packet.headKey.elim between.fragments
        (fun key => insertSession between.fragments key FRAGMENT_LIFETIME now) := by
    cases keyed : packet.headKey with
    | none => exact ⟨between, between.noteForwardedFragment_other keyed, rfl⟩
    | some key => exact ⟨_, between.noteForwardedFragment_head (headKey_eq_some.mp keyed), rfl⟩
  refine ⟨after, ran, ?_, ?_⟩
  · rw [shape, cleaned, if_pos rfl]
  · intro events run latest
    have first := TrackerRun.called run call now latest called
    have performed : (TrackerCall.noteForwardedFragment packet).perform between now =
        .ok (none, after) := by
      rw [TrackerCall.perform, ran]
      rfl
    have second := TrackerRun.called first (.noteForwardedFragment packet) now
      (List.forall_mem_cons.mpr ⟨Nat.le_refl now, latest⟩) performed
    refine ⟨[_, _], second, ?_, ?_⟩
    · intro event listed
      rcases List.mem_pair.mp listed with rfl | rfl
      · rfl
      · rfl
    · rintro key time ⟨other, _, head, listed⟩
      rcases List.mem_pair.mp listed with same | same
      · obtain ⟨noted, rfl, _⟩ := TrackerEvent.mk.inj same
        obtain rfl := TrackerCall.noteForwardedFragment.inj noted
        exact ⟨rfl, head, rfl⟩
      · exact absurd (congrArg TrackerEvent.call same).symm (quiet other)

/-- A packet that is answered by one call. -/
theorem SessionsStep.answered {packet : Packet} {now : Instant} {before after : AclSessionTracker}
    {call : TrackerCall} {passed : Bool} {answer : Option Bool}
    (quiet : ∀ packet, call ≠ .noteForwardedFragment packet)
    (called : call.perform before now = .ok (answer, after))
    (cleaned : after.fragments = (before.removeExpired now).fragments)
    (headless : passed = true → packet.headKey = none) :
    SessionsStep packet now before passed after := by
  refine ⟨?_, ?_⟩
  · rw [cleaned]
    cases passed with
    | false => rfl
    | true => rw [if_pos rfl, headless rfl]; rfl
  · intro events run latest
    refine ⟨[_], .called run call now latest called, ?_, ?_⟩
    · intro event listed
      rw [List.mem_singleton.mp listed]
    · intro key time noted
      exact absurd noted (not_noted quiet)

theorem headKey_of_later {packet : Packet} (later : ¬ packet.IsFirstFragment) :
    packet.headKey = none :=
  if_neg (fun parts => later parts.2.1)

/-- Whatever the policy, a packet takes one step of the sessions. -/
theorem relayAllowed_step (policy : AclPolicy) (packet : Packet) (now : Instant)
    (sessions : AclSessionTracker) :
    ∃ passed next, relayAllowed policy packet now sessions = .ok (passed, next) ∧
      SessionsStep packet now sessions passed next := by
  obtain ⟨decision, decided⟩ := evaluateIpv4Packet_ok policy packet
  unfold relayAllowed
  rw [isNonFirstFragment_eq]
  by_cases later : 20 ≤ packet.length ∧ packet.byte 0 >>> 4 = 4 ∧ ¬ packet.IsFirstFragment
  · obtain ⟨answer, ran, _⟩ := sessions.allowsFragment_spec packet now
    have called : (TrackerCall.allowsFragment packet).perform sessions now =
        .ok (some answer, sessions.removeExpired now) := by
      rw [TrackerCall.perform, ran]
      rfl
    refine ⟨answer, _, ?_, .answered (fun _ same => by cases same) called rfl
      (fun _ => headKey_of_later later.2.2)⟩
    refine Eq.trans ?_ ran
    exact if_pos (decide_eq_true later)
  · have first : decide (20 ≤ packet.length ∧ packet.byte 0 >>> 4 = 4 ∧
        ¬ packet.IsFirstFragment) ≠ true := fun yes => later (of_decide_eq_true yes)
    rw [decided]
    cases action : decision.action with
    | allow =>
        obtain ⟨between, observed, cleaned⟩ := sessions.observeAllowed_fragments packet now
        have called : (TrackerCall.observeAllowed packet).perform sessions now =
            .ok (none, between) := by
          rw [TrackerCall.perform, observed]
          rfl
        obtain ⟨after, noted, step⟩ :=
          SessionsStep.noted packet (fun _ same => by cases same) called cleaned
        refine ⟨true, after, ?_, step⟩
        refine (if_neg first).trans ?_
        simp only [bind, Except.bind, action, observed, noted]
        rfl
    | deny =>
        obtain ⟨answer, between, answered, shape⟩ := sessions.allowsReply_spec packet now
        have called : (TrackerCall.allowsReply packet).perform sessions now =
            .ok (some answer, between) := by
          rw [TrackerCall.perform, answered]
          rfl
        have cleaned : between.fragments = (sessions.removeExpired now).fragments := by
          rcases shape with ⟨_, rfl⟩ | ⟨_, key, session, _, _, rfl⟩
          · rfl
          · rfl
        cases answer with
        | false =>
            refine ⟨false, between, ?_,
              .answered (fun _ same => by cases same) called cleaned (fun no => by cases no)⟩
            refine (if_neg first).trans ?_
            simp only [bind, Except.bind, action, answered]
            rfl
        | true =>
            obtain ⟨after, noted, step⟩ :=
          SessionsStep.noted packet (fun _ same => by cases same) called cleaned
            refine ⟨true, after, ?_, step⟩
            refine (if_neg first).trans ?_
            simp only [bind, Except.bind, action, answered, noted]
            rfl

theorem isControlPacket_ok (packet : Packet) (inbound : Bool) :
    ∃ answer, RelayDevice.isControlPacket packet inbound = .ok answer := by
  unfold RelayDevice.isControlPacket
  by_cases short : packet.length < 20
  · exact ⟨false, if_pos short⟩
  · have first : byteAt packet 0 = .ok (packet.byte 0) := byteAt_inside (by omega)
    have protocol : byteAt packet 9 = .ok (packet.byte 9) := byteAt_inside (by omega)
    rw [if_neg short, first, protocol]
    by_cases other : packet.byte 0 >>> 4 ≠ 4 ∨ packet.byte 9 ≠ 6
    · exact ⟨false, if_pos other⟩
    · by_cases bounds : packet.headerLen < 20 ∨ packet.length < packet.headerLen + 4
      · exact ⟨false, (if_neg other).trans (if_pos bounds)⟩
      · have src : be16At packet packet.headerLen = .ok packet.sourcePort :=
          be16At_inside (by omega)
        have dst : be16At packet (packet.headerLen + 2) = .ok packet.destinationPort :=
          be16At_inside (by omega)
        refine ⟨if inbound then decide (packet.destinationPort = CONTROL_PORT)
          else decide (packet.sourcePort = CONTROL_PORT), ?_⟩
        refine (if_neg other).trans ((if_neg bounds).trans ?_)
        change (be16At packet packet.headerLen >>= _) = _
        rw [src]
        change (be16At packet (packet.headerLen + 2) >>= _) = _
        rw [dst]
        rfl

section Device

variable {dstAddress : Packet → Option Ipv4Addr}

/-- Whatever the device has been told, a delivery does not fail; it leaves the sessions alone or
takes one step with them, and relays just what passes. -/
theorem deliverInbound_step (dstAddress : Packet → Option Ipv4Addr) (device : RelayDevice)
    (sender : DevicePeer) (packet : Packet) (now : Instant) (sessions : AclSessionTracker) :
    ∃ destiny next, deliverInbound dstAddress device sender packet now sessions =
        .ok (destiny, next) ∧
      ((next = sessions ∧ ∀ target, destiny ≠ .relayed target) ∨
        ∃ passed, SessionsStep packet now sessions passed next ∧
          (passed = true ↔ ∃ target, destiny = .relayed target)) := by
  obtain ⟨control, read⟩ := isControlPacket_ok packet true
  unfold deliverInbound
  cases dstAddress packet with
  | none => exact ⟨.toTun, sessions, rfl, .inl ⟨rfl, fun _ same => by cases same⟩⟩
  | some dst =>
      simp only [read, bind, Except.bind]
      split
      · exact ⟨.discarded, sessions, rfl, .inl ⟨rfl, fun _ same => by cases same⟩⟩
      · split
        · next target _ _ =>
            split
            · exact ⟨.toTun, sessions, rfl, .inl ⟨rfl, fun _ same => by cases same⟩⟩
            · split
              · exact ⟨.discarded, sessions, rfl, .inl ⟨rfl, fun _ same => by cases same⟩⟩
              · obtain ⟨passed, next, ran, step⟩ :=
                  relayAllowed_step device.aclPolicy packet now sessions
                rw [ran]
                cases passed with
                | true =>
                    exact ⟨.relayed target.publicKey, next, rfl,
                      .inr ⟨true, step, fun _ => ⟨_, rfl⟩, fun _ => rfl⟩⟩
                | false =>
                    exact ⟨.discarded, next, rfl,
                      .inr ⟨false, step, (fun no => by cases no), (fun ⟨_, same⟩ => by cases same)⟩⟩
        · exact ⟨.toTun, sessions, rfl, .inl ⟨rfl, fun _ same => by cases same⟩⟩

/-! ### Datagrams that are known -/

/-- The packet was relayed, as the first fragment of the datagram. -/
def Forwarded (key : FragmentKey) (entry : Arrival × Destiny) : Prop :=
  (∃ target, entry.2 = .relayed target) ∧ entry.1.packet.IsHeadOf key

/-- The datagram of which a first fragment has been relayed. -/
def forwardedKey (entry : Arrival × Destiny) : Option FragmentKey :=
  match entry.2 with
  | .relayed _ => entry.1.packet.headKey
  | _ => none

theorem forwardedKey_eq_some {key : FragmentKey} {entry : Arrival × Destiny} :
    forwardedKey entry = some key ↔ Forwarded key entry := by
  unfold forwardedKey Forwarded
  cases destiny : entry.2 with
  | relayed target =>
      rw [headKey_eq_some]
      exact ⟨fun head => ⟨⟨target, rfl⟩, head⟩, And.right⟩
  | toTun => exact ⟨(fun no => by cases no), (fun ⟨⟨_, no⟩, _⟩ => by cases no)⟩
  | discarded => exact ⟨(fun no => by cases no), (fun ⟨⟨_, no⟩, _⟩ => by cases no)⟩

/-- The datagrams of which first fragments were relayed in the last 16 seconds: an entry lasts 15
seconds, and the table is cleaned up once a second. -/
def recentHeads (past : List (Arrival × Destiny)) (now : Instant) : List FragmentKey :=
  ((past.filter (fun entry => now < entry.1.now + FRAGMENT_LIFETIME + SECOND)).filterMap
    forwardedKey).dedup

/-- The table has room for the datagram. -/
def Roomy (key : FragmentKey) (past : List (Arrival × Destiny)) (now : Instant) : Prop :=
  ((recentHeads past now).erase key).length < MAX_ACL_SESSIONS

/-- A first fragment of the datagram was relayed at a time at which there was room for it. -/
inductive Recorded (key : FragmentKey) : List (Arrival × Destiny) → Instant → Prop where
  | head {older : List (Arrival × Destiny)} (arrival : Arrival) (target : PublicKey)
      (first : arrival.packet.IsHeadOf key) (room : Roomy key older arrival.now) :
      Recorded key ((arrival, .relayed target) :: older) arrival.now
  | earlier {older : List (Arrival × Destiny)} {time : Instant} (before : Recorded key older time)
      (entry : Arrival × Destiny) : Recorded key (entry :: older) time

theorem Recorded.listed {key : FragmentKey} {past : List (Arrival × Destiny)} {time : Instant}
    (recorded : Recorded key past time) : ∃ entry ∈ past, entry.1.now = time := by
  induction recorded with
  | head arrival target _ _ => exact ⟨_, List.mem_cons_self, rfl⟩
  | earlier _ entry ih =>
      obtain ⟨other, member, same⟩ := ih
      exact ⟨other, List.mem_cons_of_mem entry member, same⟩

/-- The tracker under a run is in a trace of calls at the times of the packets, in which just heads
that were relayed are noted. -/
theorem RelayRun.tracked {past : List (Arrival × Destiny)} {sessions : AclSessionTracker}
    (run : RelayRun dstAddress past sessions) :
    ∃ events, TrackerRun events sessions ∧
      (∀ event ∈ events, ∃ entry ∈ past, event.now = entry.1.now) ∧
        ∀ key time, Noted key events time → ∃ entry ∈ past, Forwarded key entry ∧
          entry.1.now = time := by
  induction run with
  | opened =>
      refine ⟨[], .opened, (fun _ none => absurd none List.not_mem_nil), fun key time noted => ?_⟩
      obtain ⟨_, _, _, none⟩ := noted
      exact absurd none List.not_mem_nil
  | @delivered past sessions next destiny before arrival later done ih =>
      obtain ⟨events, run, times, heads⟩ := ih
      obtain ⟨destiny', next', ran, shape⟩ := deliverInbound_step dstAddress arrival.device
        arrival.sender arrival.packet arrival.now sessions
      rw [done] at ran
      obtain ⟨rfl, rfl⟩ := Prod.mk.inj (Except.ok.inj ran)
      have older : ∀ event ∈ events, ∃ entry ∈ (arrival, destiny) :: past,
          event.now = entry.1.now := by
        intro event listed
        obtain ⟨entry, member, same⟩ := times event listed
        exact ⟨entry, List.mem_cons_of_mem _ member, same⟩
      have olderHeads : ∀ key time, Noted key events time →
          ∃ entry ∈ (arrival, destiny) :: past, Forwarded key entry ∧ entry.1.now = time := by
        intro key time noted
        obtain ⟨entry, member, forwarded⟩ := heads key time noted
        exact ⟨entry, List.mem_cons_of_mem _ member, forwarded⟩
      rcases shape with ⟨rfl, _⟩ | ⟨passed, step, relayed⟩
      · exact ⟨events, run, older, olderHeads⟩
      · have latest : ∀ event ∈ events, event.now ≤ arrival.now := by
          intro event listed
          obtain ⟨entry, member, same⟩ := times event listed
          rw [same]
          exact later entry member
        obtain ⟨newer, longer, now, fresh⟩ := step.tracked events run latest
        refine ⟨newer ++ events, longer, ?_, ?_⟩
        · intro event listed
          rcases List.mem_append.mp listed with new | old
          · exact ⟨_, List.mem_cons_self, now event new⟩
          · exact older event old
        · rintro key time ⟨packet, answer, head, listed⟩
          rcases List.mem_append.mp listed with new | old
          · obtain ⟨yes, first, rfl⟩ := fresh key time ⟨packet, answer, head, new⟩
            exact ⟨_, List.mem_cons_self, ⟨relayed.mp yes, first⟩, rfl⟩
          · exact olderHeads key time ⟨packet, answer, head, old⟩

/-- The table knows the datagram until some time. -/
def Knows (fragments : Table FragmentKey Session) (key : FragmentKey) (bound : Instant) : Prop :=
  ∃ session, fragments.get? key = some session ∧ bound ≤ session.expiresAt

theorem Knows.removeExpired {sessions : AclSessionTracker} {key : FragmentKey} {bound : Instant}
    (knows : Knows sessions.fragments key bound) (now : Instant) :
    Knows (sessions.removeExpired now).fragments key bound ∨ bound ≤ now := by
  obtain ⟨session, found, enough⟩ := knows
  unfold AclSessionTracker.removeExpired
  split
  · exact .inl ⟨session, found, enough⟩
  · by_cases ended : session.expiresAt ≤ now
    · exact .inr (Nat.le_trans enough ended)
    · left
      refine ⟨session, ?_, enough⟩
      change (sessions.fragments.filter _).get? key = _
      rw [Table.get?_filter, found, Option.filter_some, if_pos (by simpa using ended)]

theorem Knows.inserted {fragments : Table FragmentKey Session} {key other : FragmentKey}
    {bound now : Instant} (knows : Knows fragments key bound)
    (soon : bound ≤ now + FRAGMENT_LIFETIME) :
    Knows (insertSession fragments other FRAGMENT_LIFETIME now) key bound := by
  obtain ⟨session, found, enough⟩ := knows
  unfold insertSession
  split
  · exact ⟨session, found, enough⟩
  · by_cases same : key = other
    · subst same
      exact ⟨_, Table.get?_insert_self _ _ _, soon⟩
    · exact ⟨session, (Table.get?_insert_of_ne _ same _).trans found, enough⟩

/-- One step of the sessions. -/
theorem Knows.step {packet : Packet} {now bound : Instant} {before after : AclSessionTracker}
    {passed : Bool} {key : FragmentKey} (knows : Knows before.fragments key bound)
    (step : SessionsStep packet now before passed after)
    (soon : bound ≤ now + FRAGMENT_LIFETIME) : Knows after.fragments key bound ∨ bound ≤ now := by
  rcases knows.removeExpired now with left | ended
  · left
    rw [step.fragments]
    cases (if passed then packet.headKey else none) with
    | none => exact left
    | some other => exact left.inserted soon
  · exact .inr ended

/-- Where there is room, a head that is relayed is known for the lifetime of fragments. -/
theorem knows_head {past : List (Arrival × Destiny)} {sessions after : AclSessionTracker}
    (run : RelayRun dstAddress past sessions) {packet : Packet} {now : Instant}
    {key : FragmentKey} (head : packet.IsHeadOf key) (room : Roomy key past now)
    (step : SessionsStep packet now sessions true after) :
    Knows after.fragments key (now + FRAGMENT_LIFETIME) := by
  obtain ⟨events, traced, _, heads⟩ := run.tracked
  have inv := traced.inv.1
  obtain ⟨_, _, pruned⟩ := inv.removeExpired
    { call := .allowsFragment packet, now := now, answer := none }
  have recent : ∀ other session, (sessions.removeExpired now).fragments.get? other = some session →
      other ∈ recentHeads past now := by
    intro other session found
    obtain ⟨last, noted, rfl⟩ :=
      inv.fragments other session (removeExpired_get?.2 other session found)
    obtain ⟨entry, member, forwarded, same⟩ := heads other last noted
    have soon : now < last + FRAGMENT_LIFETIME + SECOND := pruned other _ found
    rw [recentHeads, List.mem_dedup, List.mem_filterMap]
    refine ⟨entry, List.mem_filter.mpr ⟨member, ?_⟩, forwardedKey_eq_some.mpr forwarded⟩
    rw [same]
    exact decide_eq_true soon
  have fragments : after.fragments =
      insertSession (sessions.removeExpired now).fragments key FRAGMENT_LIFETIME now := by
    rw [step.fragments, if_pos rfl, headKey_eq_some.mpr head]
    rfl
  rw [fragments, insertSession, if_neg]
  · exact ⟨_, Table.get?_insert_self _ _ _, Nat.le_refl _⟩
  · rintro ⟨full, absent⟩
    -- the rows of a full table without the datagram are as many recent heads of others
    have within : (sessions.removeExpired now).fragments.rows.map Prod.fst ⊆
        (recentHeads past now).erase key := by
      intro other listed
      obtain ⟨⟨_, session⟩, row, rfl⟩ := List.mem_map.mp listed
      have found : (sessions.removeExpired now).fragments.get? _ = some session :=
        Table.get?_eq_some.mpr row
      refine (List.mem_erase_of_ne ?_).mpr (recent _ session found)
      rintro rfl
      rw [found] at absent
      cases absent
    have few := (List.subperm_of_subset (sessions.removeExpired now).fragments.nodup
      within).length_le
    rw [List.length_map] at few
    exact absurd (few.trans_lt room) (Nat.not_lt.mpr full)

/-- A recorded datagram is known until its lifetime has passed. -/
theorem RelayRun.knows {past : List (Arrival × Destiny)} {sessions : AclSessionTracker}
    (run : RelayRun dstAddress past sessions) {key : FragmentKey} {time : Instant}
    (recorded : Recorded key past time) :
    Knows sessions.fragments key (time + FRAGMENT_LIFETIME) ∨
      ∃ entry ∈ past, time + FRAGMENT_LIFETIME ≤ entry.1.now := by
  induction run with
  | opened => cases recorded
  | @delivered past sessions next destiny before arrival later done ih =>
      obtain ⟨destiny', next', ran, shape⟩ := deliverInbound_step dstAddress arrival.device
        arrival.sender arrival.packet arrival.now sessions
      rw [done] at ran
      obtain ⟨rfl, rfl⟩ := Prod.mk.inj (Except.ok.inj ran)
      cases recorded with
      | head _ target first room =>
          rcases shape with ⟨_, kept⟩ | ⟨passed, step, relayed⟩
          · exact absurd rfl (kept target)
          · rw [relayed.mpr ⟨target, rfl⟩] at step
            exact .inl (knows_head before first room step)
      | earlier recorded _ =>
          rcases ih recorded with knows | ⟨entry, member, ended⟩
          · rcases shape with ⟨rfl, _⟩ | ⟨passed, step, _⟩
            · exact .inl knows
            · obtain ⟨entry, member, same⟩ := recorded.listed
              have soon : time + FRAGMENT_LIFETIME ≤ arrival.now + FRAGMENT_LIFETIME :=
                Nat.add_le_add_right (same ▸ later entry member) _
              rcases knows.step step soon with knows | ended
              · exact .inl knows
              · exact .inr ⟨_, List.mem_cons_self, ended⟩
          · exact .inr ⟨entry, List.mem_cons_of_mem _ member, ended⟩

/-! ### What is relayed -/

/-- A packet of version 4 from one member to another, neither of them isolated, under a policy that
denies nothing. -/
structure Arrival.Between (arrival : Arrival) (target : DevicePeer) : Prop where
  whole : arrival.packet.IsIpv4
  relay : arrival.device.relay = true
  unrestricted : arrival.device.aclPolicy.Unrestricted
  found : arrival.device.findPeerByDst arrival.packet.destination = some target
  other : target.publicKey ≠ arrival.sender.publicKey
  sender : arrival.device.isIsolated arrival.sender = false
  free : arrival.device.isIsolated target = false

theorem relayAllowed_first {policy : AclPolicy} (unrestricted : policy.Unrestricted)
    {packet : Packet} (first : packet.IsFirstFragment) (now : Instant)
    (sessions : AclSessionTracker) :
    ∃ next, relayAllowed policy packet now sessions = .ok (true, next) := by
  obtain ⟨decision, decided, action⟩ := unrestricted.evaluate packet
  obtain ⟨between, observed, _⟩ := sessions.observeAllowed_fragments packet now
  obtain ⟨next, noted, _⟩ := between.noteForwardedFragment_spec packet now
  have whole : decide (20 ≤ packet.length ∧ packet.byte 0 >>> 4 = 4 ∧
      ¬ packet.IsFirstFragment) ≠ true := fun yes => (of_decide_eq_true yes).2.2 first
  refine ⟨next, ?_⟩
  unfold relayAllowed
  rw [isNonFirstFragment_eq, decided]
  refine (if_neg whole).trans ?_
  simp only [bind, Except.bind, action, observed, noted]
  rfl

theorem relayAllowed_later {policy : AclPolicy} {packet : Packet} (whole : packet.IsIpv4)
    (later : ¬ packet.IsFirstFragment) (now : Instant) {sessions : AclSessionTracker}
    {bound : Instant} (knows : Knows (sessions.removeExpired now).fragments packet.datagram bound) :
    ∃ next, relayAllowed policy packet now sessions = .ok (true, next) := by
  obtain ⟨session, found, _⟩ := knows
  refine ⟨sessions.removeExpired now, ?_⟩
  unfold relayAllowed
  rw [isNonFirstFragment_eq]
  refine (if_pos (decide_eq_true ⟨whole.1, whole.2.1, later⟩)).trans ?_
  rw [sessions.allowsFragment_eq whole, found]
  rfl

/-- What the sessions let through is relayed. -/
theorem Arrival.Between.delivered {arrival : Arrival} {target : DevicePeer}
    (between : arrival.Between target) {sessions next : AclSessionTracker}
    (read : dstAddress arrival.packet = some arrival.packet.destination)
    (passes : relayAllowed arrival.device.aclPolicy arrival.packet arrival.now sessions =
      .ok (true, next)) :
    deliverInbound dstAddress arrival.device arrival.sender arrival.packet arrival.now sessions =
      .ok (.relayed target.publicKey, next) := by
  obtain ⟨control, controls⟩ := isControlPacket_ok arrival.packet true
  unfold deliverInbound
  simp only [read, controls, bind, Except.bind, between.sender, between.relay, between.found,
    between.free, if_neg between.other, passes, Bool.false_eq_true, false_and, if_false]
  rfl

end Device

/-- The addresses that are read where there is a header of version 4. -/
def readDestination (packet : Packet) : Option Ipv4Addr :=
  if 20 ≤ packet.length ∧ packet.byte 0 >>> 4 = 4 then some packet.destination else none

def relayAlice : DevicePeer where
  publicKey := ⟨1⟩
  allowedIps := [Ipv4Net.host 0x0a000002]

def relayBob : DevicePeer where
  publicKey := ⟨2⟩
  allowedIps := [Ipv4Net.host 0x0a000003]

def openRelay : RelayDevice where
  relay := true
  peers := [relayAlice, relayBob]
  aclPolicy := { default := .allow, rules := [] }
  isolated := []
  isolationHost := none

/-- A fragment of a datagram of UDP from one to the other; `flags` are the flags and the upper part
of the offset, `low` its lower part. -/
def sentFragment (flags low : UInt8) (now : Instant) : Arrival where
  device := openRelay
  sender := relayAlice
  packet := [0x45, 0, 0, 28, 0x12, 0x34, flags, low, 64, 17, 0, 0, 10, 0, 0, 2, 10, 0, 0, 3,
    156, 64, 202, 108, 0, 8, 0, 0]
  now := now

theorem sentFragment_between (flags low : UInt8) (now : Instant) :
    (sentFragment flags low now).Between relayBob where
  whole := by
    have header : (sentFragment flags low now).packet.headerLen = 20 :=
      (by decide : ((0x45 : UInt8) &&& 0x0f).toNat * 4 = 20)
    rw [Packet.IsIpv4, header]
    exact ⟨(by decide : 20 ≤ 28), (by decide : (0x45 : UInt8) >>> 4 = 4), Nat.le_refl 20,
      (by decide : 20 ≤ 28)⟩
  relay := rfl
  unrestricted := ⟨rfl, fun _ none => absurd none List.not_mem_nil⟩
  found := (by decide : openRelay.findPeerByDst (Ipv4Addr.ofOctets 10 0 0 3) = some relayBob)
  other := (by decide : relayBob.publicKey ≠ relayAlice.publicKey)
  sender := (by decide : openRelay.isIsolated relayAlice = false)
  free := (by decide : openRelay.isIsolated relayBob = false)

theorem readDestination_reads (packet : Packet) (whole : packet.IsIpv4) :
    readDestination packet = some packet.destination :=
  if_pos ⟨whole.1, whole.2.1⟩

end PeerCove
