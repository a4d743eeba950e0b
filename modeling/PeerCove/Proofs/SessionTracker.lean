/-
Module: PeerCove.Proofs.SessionTracker
Layer: Proofs
Purpose: The tracker of allowed sessions answers yes only where earlier packets justify it, over any
  trace of calls.
Trusted boundary: none
Main exports: TrackerRun, Alive, tracker_sound
-/
import PeerCove.Proofs.PacketFields

namespace PeerCove

/-! ### What the tracker takes from a packet -/

/-- How long a session goes on without a packet. -/
def ReplyKey.lifetime : ReplyKey → Nat
  | .transport _ _ protocol _ _ =>
      if protocol = 6 then TCP_SESSION_LIFETIME else UDP_SESSION_LIFETIME
  | .icmpEcho _ _ _ _ => ICMP_SESSION_LIFETIME

theorem ReplyKey.lifetime_pos (key : ReplyKey) : 0 < key.lifetime := by
  cases key with
  | transport src dst protocol srcPort dstPort =>
      simp only [lifetime]
      split
      · decide
      · decide
  | icmpEcho src dst kind identifier => exact Nat.mul_pos (by decide) (by decide)

namespace AclSessionTracker

/-- An allowed packet sets at most the entry whose direction it mirrors, and only if it opens a
session or the entry is there. -/
theorem observeAllowed_spec (tracker : AclSessionTracker) (packet : Packet) (now : Nat) :
    ∃ next, tracker.observeAllowed packet now = .ok next ∧
      (next = tracker.removeExpired now ∨ ∃ key, packet.Mirrors key ∧
        (packet.Opens ∨ ((tracker.removeExpired now).replies.get? key).isSome = true) ∧
        next = (tracker.removeExpired now).insert key key.lifetime now) := by
  unfold observeAllowed
  rw [sessionCandidate_eq]
  by_cases whole : packet.IsFirstFragment ∧ packet.IsIpv4
  · rw [if_pos whole]
    by_cases ports : packet.HasPorts
    · rw [if_pos ports]
      by_cases goes : decide (packet.protocol = 17 ∨ packet.IsSyn) = true ∨
          ((tracker.removeExpired now).replies.get? (.transport packet.destination packet.source
            packet.protocol packet.destinationPort packet.sourcePort)).isSome = true
      · refine ⟨_, if_pos goes, .inr ⟨_, ?_, ?_, rfl⟩⟩
        · exact ⟨whole.2, whole.1, ports, rfl, rfl, rfl, rfl, rfl⟩
        · rcases goes with opens | present
          · left
            rcases of_decide_eq_true opens with udp | syn
            · exact .inl udp
            · rcases ports.1 with tcp | udp
              · exact .inr (.inl ⟨tcp, syn⟩)
              · exact .inl udp
          · exact .inr present
      · exact ⟨_, if_neg goes, .inl rfl⟩
    · rw [if_neg ports]
      by_cases request : packet.HasEcho ∧ packet.icmpKind = 8
      · rw [if_pos request]
        refine ⟨_, rfl, .inr ⟨.icmpEcho packet.destination packet.source 0 packet.echoIdentifier,
          ?_, ?_, rfl⟩⟩
        · exact ⟨whole.2, whole.1, request.1, rfl, rfl, request.2, rfl, rfl⟩
        · exact .inl (.inr (.inr ⟨request.1.1, request.2⟩))
      · rw [if_neg request]
        exact ⟨_, rfl, .inl rfl⟩
  · rw [if_neg whole]
    exact ⟨_, rfl, .inl rfl⟩

/-- A reply is let through only under an entry for its direction, which is renewed. -/
theorem allowsReply_spec (tracker : AclSessionTracker) (packet : Packet) (now : Nat) :
    ∃ answer next, tracker.allowsReply packet now = .ok (answer, next) ∧
      (answer = false ∧ next = tracker.removeExpired now ∨
        answer = true ∧ ∃ key session, packet.Answers key ∧
          (tracker.removeExpired now).replies.get? key = some session ∧
          next = { tracker.removeExpired now with
            replies := (tracker.removeExpired now).replies.update key
              (fun _ => Session.started now session.lifetime) }) := by
  cases keyed : packetReplyKey packet with
  | error error =>
      rw [packetReplyKey_eq] at keyed
      cases keyed
  | ok key =>
      unfold allowsReply
      rw [keyed]
      cases key with
      | none => exact ⟨false, _, rfl, .inl ⟨rfl, rfl⟩⟩
      | some key =>
          cases found : (tracker.removeExpired now).replies.get? key with
          | none =>
              refine ⟨false, tracker.removeExpired now, ?_, .inl ⟨rfl, rfl⟩⟩
              simp only [bind, Except.bind, found]
              rfl
          | some session =>
              have answers := packetReplyKey_answers keyed
              refine ⟨true, _, ?_, .inr ⟨rfl, key, session, answers, found, rfl⟩⟩
              simp only [bind, Except.bind, found]
              rfl

/-- Only the first of several fragments sets an entry, that of its datagram. -/
theorem noteForwardedFragment_spec (tracker : AclSessionTracker) (packet : Packet) (now : Nat) :
    ∃ next, tracker.noteForwardedFragment packet now = .ok next ∧
      (next = tracker ∨
        ∃ key, packet.IsHeadOf key ∧ next = tracker.insertFragment key now) := by
  unfold noteForwardedFragment
  rw [isInitialFragment_eq, hasMoreFragments_eq, fragmentKey_eq]
  by_cases first : packet.IsFirstFragment
  · by_cases more : packet.HasMore
    · by_cases whole : packet.IsIpv4
      · simp only [first, more, whole, decide_true, if_true]
        exact ⟨_, rfl, .inr ⟨_, ⟨⟨whole, rfl, rfl, rfl, rfl⟩, first, more⟩, rfl⟩⟩
      · simp only [first, more, whole, decide_true, if_false]
        exact ⟨_, rfl, .inl rfl⟩
    · simp only [first, more, decide_true, decide_false]
      exact ⟨_, rfl, .inl rfl⟩
  · simp only [first, decide_false]
    exact ⟨_, rfl, .inl rfl⟩

/-- A fragment is let through only under an entry for its datagram. -/
theorem allowsFragment_spec (tracker : AclSessionTracker) (packet : Packet) (now : Nat) :
    ∃ answer, tracker.allowsFragment packet now = .ok (answer, tracker.removeExpired now) ∧
      (answer = true → ∃ key session, packet.IsFragmentOf key ∧
        (tracker.removeExpired now).fragments.get? key = some session) := by
  unfold allowsFragment
  rw [fragmentKey_eq]
  by_cases whole : packet.IsIpv4
  · rw [if_pos whole]
    refine ⟨_, rfl, ?_⟩
    intro present
    rcases Option.isSome_iff_exists.mp present with ⟨session, found⟩
    exact ⟨_, session, ⟨whole, rfl, rfl, rfl, rfl⟩, found⟩
  · rw [if_neg whole]
    exact ⟨false, rfl, fun absurd => by cases absurd⟩

end AclSessionTracker

/-! ### Traces -/

inductive TrackerCall where
  | observeAllowed (packet : Packet)
  | allowsReply (packet : Packet)
  | noteForwardedFragment (packet : Packet)
  | allowsFragment (packet : Packet)
deriving DecidableEq

/-- A call, with its answer if it has one. -/
def TrackerCall.perform (tracker : AclSessionTracker) (now : Nat) :
    TrackerCall → Except String (Option Bool × AclSessionTracker)
  | .observeAllowed packet => do
      let next ← tracker.observeAllowed packet now
      return (none, next)
  | .allowsReply packet => do
      let (answer, next) ← tracker.allowsReply packet now
      return (some answer, next)
  | .noteForwardedFragment packet => do
      let next ← tracker.noteForwardedFragment packet now
      return (none, next)
  | .allowsFragment packet => do
      let (answer, next) ← tracker.allowsFragment packet now
      return (some answer, next)

structure TrackerEvent where
  call : TrackerCall
  now : Nat
  answer : Option Bool
deriving DecidableEq

/-- Traces of calls, the newest first, whose times do not decrease. -/
inductive TrackerRun : List TrackerEvent → AclSessionTracker → Prop where
  | opened : TrackerRun [] {}
  | called {events : List TrackerEvent} {tracker next : AclSessionTracker} {answer : Option Bool}
      (before : TrackerRun events tracker) (call : TrackerCall) (now : Nat)
      (later : ∀ earlier ∈ events, earlier.now ≤ now)
      (done : call.perform tracker now = .ok (answer, next)) :
      TrackerRun ({ call := call, now := now, answer := answer } :: events) next

/-- A packet of the session: one allowed against the direction of its replies, or a reply. -/
inductive TrackerEvent.Continues (key : ReplyKey) : TrackerEvent → Prop where
  | allowed (packet : Packet) (now : Nat) (answer : Option Bool) (mirrors : packet.Mirrors key) :
      Continues key { call := .observeAllowed packet, now := now, answer := answer }
  | replied (packet : Packet) (now : Nat) (answers : packet.Answers key) :
      Continues key { call := .allowsReply packet, now := now, answer := some true }

/-- A chain of packets of one session in a trace, up to the time of the last: the first opens the
session, and each comes before the session is over, or at most a second later. -/
inductive Alive (key : ReplyKey) : List TrackerEvent → Nat → Prop where
  | opened {older : List TrackerEvent} (packet : Packet) (now : Nat) (answer : Option Bool)
      (mirrors : packet.Mirrors key) (opens : packet.Opens) :
      Alive key ({ call := .observeAllowed packet, now := now, answer := answer } :: older) now
  | prolonged {older : List TrackerEvent} {last : Nat} {event : TrackerEvent}
      (before : Alive key older last) (continues : event.Continues key)
      (soon : event.now < last + key.lifetime + SECOND) : Alive key (event :: older) event.now
  | waiting {older : List TrackerEvent} {last : Nat} (before : Alive key older last)
      (event : TrackerEvent) : Alive key (event :: older) last

/-- The first fragment of a datagram was noted at a time. -/
def Noted (key : FragmentKey) (events : List TrackerEvent) (time : Nat) : Prop :=
  ∃ packet answer, packet.IsHeadOf key ∧
    { call := .noteForwardedFragment packet, now := time, answer := answer } ∈ events

/-! ### Invariants of a trace -/

/-- Entries of a table of sessions: each was used last at a time the trace justifies. -/
def Justified {κ : Type} [DecidableEq κ] (lifetime : κ → Nat) (used : κ → Nat → Prop)
    (table : Table κ Session) : Prop :=
  ∀ key session, table.get? key = some session →
    ∃ last, used key last ∧ session = Session.started last (lifetime key)

/-- No entry had expired by the last time the tables were cleaned up, a second before `next`. -/
def Pruned {κ : Type} [DecidableEq κ] (next : Nat) (table : Table κ Session) : Prop :=
  ∀ key session, table.get? key = some session → next < session.expiresAt + SECOND

structure TrackerInv (events : List TrackerEvent) (tracker : AclSessionTracker) : Prop where
  replies : Justified ReplyKey.lifetime (fun key => Alive key events) tracker.replies
  fragments : Justified (fun _ => FRAGMENT_LIFETIME) (fun key => Noted key events)
    tracker.fragments
  pruned : ∀ next, tracker.nextPrune = some next →
    Pruned next tracker.replies ∧ Pruned next tracker.fragments ∧
      ∃ event ∈ events, next = event.now + SECOND
  fewReplies : tracker.replies.size ≤ MAX_ACL_SESSIONS
  fewFragments : tracker.fragments.size ≤ MAX_ACL_SESSIONS

theorem Noted.cons {key : FragmentKey} {events : List TrackerEvent} {time : Nat}
    (noted : Noted key events time) (event : TrackerEvent) : Noted key (event :: events) time := by
  rcases noted with ⟨packet, answer, head, listed⟩
  exact ⟨packet, answer, head, List.mem_cons_of_mem _ listed⟩

/-- A call that changes nothing. -/
theorem TrackerInv.wait {events : List TrackerEvent} {tracker : AclSessionTracker}
    (inv : TrackerInv events tracker) (event : TrackerEvent) :
    TrackerInv (event :: events) tracker where
  replies := by
    intro key session found
    rcases inv.replies key session found with ⟨last, alive, same⟩
    exact ⟨last, alive.waiting event, same⟩
  fragments := by
    intro key session found
    rcases inv.fragments key session found with ⟨last, noted, same⟩
    exact ⟨last, noted.cons event, same⟩
  pruned := by
    intro next scheduled
    rcases inv.pruned next scheduled with ⟨replies, fragments, earlier, listed, same⟩
    exact ⟨replies, fragments, earlier, List.mem_cons_of_mem _ listed, same⟩
  fewReplies := inv.fewReplies
  fewFragments := inv.fewFragments

/-- A row that is left was there, and had not expired. -/
theorem prune_get? {κ : Type} [DecidableEq κ] {table : Table κ Session} {now : Nat} {key : κ}
    {session : Session}
    (found : (table.filter (fun _ session => session.expiresAt > now)).get? key = some session) :
    table.get? key = some session ∧ now < session.expiresAt := by
  rw [Table.get?_filter, Option.filter_eq_some_iff] at found
  exact ⟨found.1, by simpa using found.2⟩

/-- What is left after a clean-up was there before. -/
theorem removeExpired_get? {tracker : AclSessionTracker} {now : Nat} :
    (∀ key session, (tracker.removeExpired now).replies.get? key = some session →
      tracker.replies.get? key = some session) ∧
    ∀ key session, (tracker.removeExpired now).fragments.get? key = some session →
      tracker.fragments.get? key = some session := by
  unfold AclSessionTracker.removeExpired
  split
  · exact ⟨fun _ _ found => found, fun _ _ found => found⟩
  · exact ⟨fun _ _ found => (prune_get? found).1, fun _ _ found => (prune_get? found).1⟩

/-- After a clean-up that is due, or one that is not, every entry that is left has expired for less
than a second. -/
theorem TrackerInv.removeExpired {events : List TrackerEvent} {tracker : AclSessionTracker}
    (inv : TrackerInv events tracker) (event : TrackerEvent) :
    TrackerInv (event :: events) (tracker.removeExpired event.now) ∧
      Pruned event.now (tracker.removeExpired event.now).replies ∧
      Pruned event.now (tracker.removeExpired event.now).fragments := by
  unfold AclSessionTracker.removeExpired
  split
  · rename_i early
    rcases Option.any_eq_true _ _ |>.mp early with ⟨next, scheduled, soon⟩
    rcases inv.pruned next scheduled with ⟨replies, fragments, _⟩
    have before : event.now < next := of_decide_eq_true soon
    refine ⟨inv.wait event, ?_, ?_⟩
    · exact fun key session found => before.trans (replies key session found)
    · exact fun key session found => before.trans (fragments key session found)
  · have replies : Pruned (event.now + SECOND) (tracker.replies.filter
        (fun _ session => session.expiresAt > event.now)) :=
      fun key session found => Nat.add_lt_add_right (prune_get? found).2 SECOND
    have fragments : Pruned (event.now + SECOND) (tracker.fragments.filter
        (fun _ session => session.expiresAt > event.now)) :=
      fun key session found => Nat.add_lt_add_right (prune_get? found).2 SECOND
    refine ⟨⟨?_, ?_, ?_, ?_, ?_⟩, ?_, ?_⟩
    · exact fun key session found => (inv.wait event).replies key session (prune_get? found).1
    · exact fun key session found => (inv.wait event).fragments key session (prune_get? found).1
    · intro next scheduled
      obtain rfl := Option.some.inj scheduled
      exact ⟨replies, fragments, event, List.mem_cons_self, rfl⟩
    · exact (List.length_filter_le _ _).trans inv.fewReplies
    · exact (List.length_filter_le _ _).trans inv.fewFragments
    · exact fun key session found =>
        (Nat.le_add_right _ _).trans_lt (replies key session found)
    · exact fun key session found =>
        (Nat.le_add_right _ _).trans_lt (fragments key session found)

/-- What is in a table after an entry was set. -/
theorem insertSession_get? {κ : Type} [DecidableEq κ] {table : Table κ Session} {key other : κ}
    {lifetime now : Nat} {session : Session}
    (found : (insertSession table key lifetime now).get? other = some session) :
    other = key ∧ session = Session.started now lifetime ∨ table.get? other = some session := by
  unfold insertSession at found
  split at found
  · exact .inr found
  · rw [Table.get?_insert] at found
    split at found
    · rename_i same
      exact .inl ⟨same, (Option.some.inj found).symm⟩
    · exact .inr found

theorem insertSession_size {κ : Type} [DecidableEq κ] {table : Table κ Session}
    (few : table.size ≤ MAX_ACL_SESSIONS) (key : κ) (lifetime now : Nat) :
    (insertSession table key lifetime now).size ≤ MAX_ACL_SESSIONS := by
  unfold insertSession
  split
  · exact few
  · rename_i room
    rw [Table.size_insert]
    cases found : table.get? key with
    | none =>
        simp only [found, Option.isSome_none, and_true, ge_iff_le, Nat.not_le] at room
        exact (Nat.succ_le_succ (Table.size_erase_le table key)).trans room
    | some session =>
        rw [Table.size_erase_some found]
        exact few

/-- A table in which one entry was set now is justified and pruned as before. -/
theorem set_justified {κ : Type} [DecidableEq κ] {lifetime : κ → Nat} {used : κ → Nat → Prop}
    {table table' : Table κ Session} {key : κ} {now : Nat} (next : Nat)
    (changed : ∀ other session, table'.get? other = some session →
      other = key ∧ session = Session.started now (lifetime key) ∨
        table.get? other = some session)
    (justified : Justified lifetime used table) (now_used : used key now) :
    Justified lifetime used table' ∧
      (Pruned next table → next ≤ now + SECOND → 0 < lifetime key → Pruned next table') := by
  constructor
  · intro other session found
    rcases changed other session found with ⟨rfl, same⟩ | old
    · exact ⟨now, now_used, same⟩
    · exact justified other session old
  · intro pruned soon positive other session found
    rcases changed other session found with ⟨_, rfl⟩ | old
    · simp only [Session.started]
      omega
    · exact pruned other session old

section Set

variable {events : List TrackerEvent} {tracker : AclSessionTracker} {now : Nat}

/-- An entry for a session whose last packet comes now. -/
theorem TrackerInv.setReply {key : ReplyKey} {replies : Table ReplyKey Session}
    (inv : TrackerInv events tracker) (latest : ∀ event ∈ events, event.now ≤ now)
    (alive : Alive key events now)
    (changed : ∀ other session, replies.get? other = some session →
      other = key ∧ session = Session.started now key.lifetime ∨
        tracker.replies.get? other = some session)
    (few : replies.size ≤ MAX_ACL_SESSIONS) :
    TrackerInv events { tracker with replies := replies } where
  replies := (set_justified 0 changed inv.replies alive).1
  fragments := inv.fragments
  pruned := by
    intro next scheduled
    rcases inv.pruned next scheduled with ⟨old, fragments, event, listed, rfl⟩
    refine ⟨?_, fragments, event, listed, rfl⟩
    exact (set_justified _ changed inv.replies alive).2 old
      (Nat.add_le_add_right (latest event listed) SECOND) key.lifetime_pos
  fewReplies := few
  fewFragments := inv.fewFragments

/-- An entry for a datagram whose first fragment comes now. -/
theorem TrackerInv.setFragment {key : FragmentKey} (inv : TrackerInv events tracker)
    (latest : ∀ event ∈ events, event.now ≤ now) (noted : Noted key events now) :
    TrackerInv events (tracker.insertFragment key now) where
  replies := inv.replies
  fragments :=
    (set_justified 0 (fun _ _ found => insertSession_get? found) inv.fragments noted).1
  pruned := by
    intro next scheduled
    rcases inv.pruned next scheduled with ⟨replies, old, event, listed, rfl⟩
    refine ⟨replies, ?_, event, listed, rfl⟩
    exact (set_justified _ (fun _ _ found => insertSession_get? found) inv.fragments noted).2 old
      (Nat.add_le_add_right (latest event listed) SECOND) (by decide)
  fewReplies := inv.fewReplies
  fewFragments := insertSession_size inv.fewFragments key FRAGMENT_LIFETIME now

end Set

/-! ### What the answers rest on -/

/-- A positive answer is justified by the calls before it. -/
def TrackerEvent.Grounded (event : TrackerEvent) (older : List TrackerEvent) : Prop :=
  (∀ packet, event.call = .allowsReply packet → event.answer = some true →
    ∃ key last, packet.Answers key ∧ Alive key older last ∧
      event.now < last + key.lifetime + SECOND) ∧
    ∀ packet, event.call = .allowsFragment packet → event.answer = some true →
      ∃ key time, packet.IsFragmentOf key ∧ Noted key older time ∧
        event.now < time + FRAGMENT_LIFETIME + SECOND

/-- One call: it does not fail, keeps the invariant, and its answer is justified. -/
theorem perform_step {events : List TrackerEvent} {tracker : AclSessionTracker}
    (inv : TrackerInv events tracker) (call : TrackerCall) (now : Nat)
    (later : ∀ earlier ∈ events, earlier.now ≤ now) :
    ∃ answer next, call.perform tracker now = .ok (answer, next) ∧
      TrackerInv ({ call := call, now := now, answer := answer } :: events) next ∧
      TrackerEvent.Grounded { call := call, now := now, answer := answer } events := by
  have latest (answer : Option Bool) :
      ∀ event ∈ { call := call, now := now, answer := answer } :: events, event.now ≤ now := by
    intro event listed
    rcases List.mem_cons.mp listed with rfl | old
    · exact Nat.le_refl _
    · exact later event old
  cases call with
  | observeAllowed packet =>
      rcases tracker.observeAllowed_spec packet now with ⟨next, ran, shape⟩
      refine ⟨none, next, by rw [TrackerCall.perform, ran]; rfl, ?_, ?_⟩
      · rcases inv.removeExpired { call := .observeAllowed packet, now := now, answer := none } with
          ⟨kept, replies, _⟩
        rcases shape with rfl | ⟨key, mirrors, opens, rfl⟩
        · exact kept
        · refine kept.setReply (latest none) ?_ (fun _ _ found => insertSession_get? found)
            (insertSession_size kept.fewReplies ..)
          rcases opens with opens | present
          · exact .opened packet now none mirrors opens
          · -- the entry is there, so its session has been over for less than a second
            rcases Option.isSome_iff_exists.mp present with ⟨session, found⟩
            rcases inv.replies key session (removeExpired_get?.1 key session found) with
              ⟨last, alive, rfl⟩
            exact .prolonged alive (.allowed packet now none mirrors) (replies key _ found)
      · refine ⟨?_, ?_⟩
        · intro _ same
          cases same
        · intro _ same
          cases same
  | allowsReply packet =>
      rcases tracker.allowsReply_spec packet now with ⟨answer, next, ran, shape⟩
      refine ⟨some answer, next, by rw [TrackerCall.perform, ran]; rfl, ?_⟩
      rcases inv.removeExpired
        { call := .allowsReply packet, now := now, answer := some answer } with ⟨kept, replies, _⟩
      rcases shape with ⟨rfl, rfl⟩ | ⟨rfl, key, session, answers, found, rfl⟩
      · refine ⟨kept, ?_, ?_⟩
        · intro _ _ yes
          cases yes
        · intro _ same
          cases same
      · rcases inv.replies key session (removeExpired_get?.1 key session found) with
          ⟨last, alive, rfl⟩
        have soon := replies key _ found
        refine ⟨?_, ?_, ?_⟩
        · refine kept.setReply (latest (some true))
            (.prolonged alive (.replied packet now answers) soon) ?_ ?_
          · intro other session there
            rw [Table.get?_update] at there
            split at there
            · rename_i same
              rw [same, found] at there
              exact .inl ⟨same, (Option.some.inj there).symm⟩
            · exact .inr there
          · rw [Table.size_update]
            exact kept.fewReplies
        · intro asked same _
          obtain rfl := TrackerCall.allowsReply.inj same
          exact ⟨key, last, answers, alive, soon⟩
        · intro _ same
          cases same
  | noteForwardedFragment packet =>
      rcases tracker.noteForwardedFragment_spec packet now with ⟨next, ran, shape⟩
      refine ⟨none, next, by rw [TrackerCall.perform, ran]; rfl, ?_, ?_, ?_⟩
      · have kept :=
          inv.wait { call := .noteForwardedFragment packet, now := now, answer := none }
        rcases shape with rfl | ⟨key, head, rfl⟩
        · exact kept
        · exact kept.setFragment (latest none) ⟨packet, none, head, List.mem_cons_self⟩
      · intro _ same
        cases same
      · intro _ same
        cases same
  | allowsFragment packet =>
      rcases tracker.allowsFragment_spec packet now with ⟨answer, ran, known⟩
      refine ⟨some answer, tracker.removeExpired now, by rw [TrackerCall.perform, ran]; rfl, ?_⟩
      rcases inv.removeExpired
        { call := .allowsFragment packet, now := now, answer := some answer } with
          ⟨kept, _, fragments⟩
      refine ⟨kept, ?_, ?_⟩
      · intro _ same
        cases same
      · intro asked same yes
        obtain rfl := TrackerCall.allowsFragment.inj same
        rcases known (Option.some.inj yes) with ⟨key, session, fragment, found⟩
        rcases inv.fragments key session (removeExpired_get?.2 key session found) with
          ⟨time, noted, rfl⟩
        exact ⟨key, time, fragment, noted, fragments key _ found⟩

/-- The invariant holds throughout a trace, and every answer in it is justified. -/
theorem TrackerRun.inv {events : List TrackerEvent} {tracker : AclSessionTracker}
    (run : TrackerRun events tracker) :
    TrackerInv events tracker ∧
      ∀ newer event older, events = newer ++ event :: older → event.Grounded older := by
  induction run with
  | opened =>
      refine ⟨⟨?_, ?_, ?_, ?_, ?_⟩, ?_⟩
      · intro key session found
        cases found
      · intro key session found
        cases found
      · intro next scheduled
        cases scheduled
      · exact Nat.zero_le _
      · exact Nat.zero_le _
      · intro newer event older split
        exact absurd split (by simp)
  | @called events tracker next answer before call now later done ih =>
      rcases perform_step ih.1 call now later with ⟨answer', next', ran, inv, grounded⟩
      rw [done] at ran
      rcases Prod.mk.inj (Except.ok.inj ran) with ⟨rfl, rfl⟩
      refine ⟨inv, ?_⟩
      intro newer event older split
      cases newer with
      | nil =>
          rcases List.cons.inj split with ⟨rfl, rfl⟩
          exact grounded
      | cons latest newer =>
          rcases List.cons.inj split with ⟨_, rest⟩
          exact ih.2 newer event older rest

/-- In every trace of calls on any packets, with times that do not decrease: a reply is let through
only if a packet against its direction opened a session and packets of the session followed each
other up to now within its lifetime and a second; a fragment only if the first one of its datagram
was noted within the lifetime of fragments and a second; the tables keep their size; and no call
fails. -/
theorem tracker_sound {events : List TrackerEvent} {tracker : AclSessionTracker}
    (run : TrackerRun events tracker) :
    (∀ newer event older, events = newer ++ event :: older → event.Grounded older) ∧
      tracker.replies.size ≤ MAX_ACL_SESSIONS ∧ tracker.fragments.size ≤ MAX_ACL_SESSIONS ∧
      ∀ call now, ∃ answer next, TrackerCall.perform tracker now call = .ok (answer, next) := by
  refine ⟨run.inv.2, run.inv.1.fewReplies, run.inv.1.fewFragments, ?_⟩
  intro call now
  cases call with
  | observeAllowed packet =>
      rcases tracker.observeAllowed_spec packet now with ⟨next, ran, _⟩
      exact ⟨none, next, by rw [TrackerCall.perform, ran]; rfl⟩
  | allowsReply packet =>
      rcases tracker.allowsReply_spec packet now with ⟨answer, next, ran, _⟩
      exact ⟨some answer, next, by rw [TrackerCall.perform, ran]; rfl⟩
  | noteForwardedFragment packet =>
      rcases tracker.noteForwardedFragment_spec packet now with ⟨next, ran, _⟩
      exact ⟨none, next, by rw [TrackerCall.perform, ran]; rfl⟩
  | allowsFragment packet =>
      rcases tracker.allowsFragment_spec packet now with ⟨answer, ran, _⟩
      exact ⟨some answer, _, by rw [TrackerCall.perform, ran]; rfl⟩

/-- A datagram of UDP between two hosts of one network, without a payload. -/
def datagram (src dst : UInt8) (srcPort dstPort : UInt8 × UInt8) : Packet :=
  [0x45, 0, 0, 28, 0, 1, 0, 0, 64, 17, 0, 0, 10, 0, 0, src, 10, 0, 0, dst,
    srcPort.1, srcPort.2, dstPort.1, dstPort.2, 0, 8, 0, 0]

def udpQuery : Packet := datagram 3 2 (195, 80) (0, 53)
def udpResponse : Packet := datagram 2 3 (0, 53) (195, 80)

def queried : TrackerEvent where
  call := .observeAllowed udpQuery
  now := 0
  answer := none

def responded : TrackerEvent where
  call := .allowsReply udpResponse
  now := 5 * SECOND
  answer := some true

/-- A reply five seconds after a query of UDP. -/
theorem tracker_sound_udp :
    ∃ key last, udpResponse.Answers key ∧ Alive key [queried] last ∧
      5 * SECOND < last + key.lifetime + SECOND := by
  have run : TrackerRun [responded, queried] _ :=
    .called (.called .opened (.observeAllowed udpQuery) 0 (by simp) rfl) (.allowsReply udpResponse)
      (5 * SECOND) (by simp) rfl
  exact ((tracker_sound run).1 [] responded [queried] rfl).1 udpResponse rfl rfl

end PeerCove
