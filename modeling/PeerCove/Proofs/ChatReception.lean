/-
Module: PeerCove.Proofs.ChatReception
Layer: Proofs
Purpose: When each message is in the history once and every acknowledgement is true, over all
  interleavings of the connections.
Trusted boundary: none
Main exports: Recorded, ReceivesOnce, Honest, ChatReceiver.reception_honest
-/
import PeerCove.Chat.ChatReception
import PeerCove.Library.Runs

namespace PeerCove

variable {ownIp : Ipv4Addr} {log : ChatLog} {reception other : Reception}
  {receiver next : ChatReceiver} {event : ReceptionEvent}

/-- The history has the message as its sender sent it. -/
def InHistory (log : ChatLog) (reception : Reception) : Prop :=
  ∃ entry ∈ log.entries, entry.fromIp = reception.peerIp ∧ entry.id = reception.frame.id ∧
    entry.text = reception.frame.text

/-- No sender's id is in the history twice. -/
def OncePerSender (log : ChatLog) : Prop :=
  (log.entries.map (fun entry => (entry.fromIp, entry.id))).Nodup

/-- As long as the history has dropped nothing: every message is there once, and what was
acknowledged is there. -/
def Honest (receiver : ChatReceiver) : Prop :=
  receiver.overflowed = false →
    OncePerSender receiver.log ∧ ∀ reception ∈ receiver.acks, InHistory receiver.log reception

/-- An id that the history knows is that of the same text of the same sender.  A message goes into
the history when no other connection has entered the same sender's id since the check. -/
def ReceivesOnce : ReceptionEvent → ChatReceiver → Prop
  | .check reception, receiver =>
      receiver.log.containsId reception.frame.id = true → InHistory receiver.log reception
  | .append reception, receiver =>
      ∀ entry ∈ receiver.log.entries,
        ¬ (entry.fromIp = reception.peerIp ∧ entry.id = reception.frame.id)
  | _, _ => True

instance (log : ChatLog) (reception : Reception) : Decidable (InHistory log reception) :=
  inferInstanceAs (Decidable (∃ entry ∈ log.entries, entry.fromIp = reception.peerIp ∧
    entry.id = reception.frame.id ∧ entry.text = reception.frame.text))

instance (log : ChatLog) : Decidable (OncePerSender log) :=
  inferInstanceAs (Decidable (List.Nodup _))

instance : ∀ event receiver, Decidable (ReceivesOnce event receiver)
  | .check reception, receiver =>
      inferInstanceAs (Decidable (receiver.log.containsId reception.frame.id = true →
        InHistory receiver.log reception))
  | .append reception, receiver =>
      inferInstanceAs (Decidable (∀ entry ∈ receiver.log.entries,
        ¬ (entry.fromIp = reception.peerIp ∧ entry.id = reception.frame.id)))
  | .receive _, _ | .ack _, _ | .lose _, _ => isTrue trivial

/-! ### One step -/

/-- What is about to be acknowledged is in the history, too. -/
structure Faithful (receiver : ChatReceiver) : Prop where
  once : OncePerSender receiver.log
  acked : ∀ reception ∈ receiver.acks, InHistory receiver.log reception
  acking : ∀ reception ∈ receiver.acking, InHistory receiver.log reception

/-- A message that fits into the history leaves the others in it. -/
theorem InHistory.append {entry : ChatMessageInfo} (there : InHistory log reception)
    (fits : log.entries.length < MAX_HISTORY) : InHistory (log.append entry).1 reception := by
  obtain ⟨found, listed, same⟩ := there
  refine ⟨found, ?_, same⟩
  rw [ChatLog.append_entries fits]
  exact List.mem_append_left _ listed

theorem inHistory_appended (fits : log.entries.length < MAX_HISTORY) :
    InHistory (log.append (reception.entry ownIp)).1 reception := by
  refine ⟨{ reception.entry ownIp with seq := log.nextSeq }, ?_, rfl, rfl, rfl⟩
  rw [ChatLog.append_entries fits]
  exact List.mem_append_right _ List.mem_cons_self

theorem OncePerSender.append (once : OncePerSender log)
    (fits : log.entries.length < MAX_HISTORY)
    (new : ∀ entry ∈ log.entries,
      ¬ (entry.fromIp = reception.peerIp ∧ entry.id = reception.frame.id)) :
    OncePerSender (log.append (reception.entry ownIp)).1 := by
  rw [OncePerSender, ChatLog.append_entries fits, List.map_append, List.nodup_append]
  refine ⟨once, List.pairwise_singleton _ _, ?_⟩
  intro pair listed newest last same
  obtain ⟨entry, member, rfl⟩ := List.mem_map.mp listed
  rw [List.map_singleton, List.mem_singleton] at last
  rw [last] at same
  exact new entry member (Prod.mk.inj same)

/-- A step that meets the condition and drops nothing keeps the history faithful. -/
theorem faithful_step (faithful : Faithful receiver) (meets : ReceivesOnce event receiver)
    (happens : receiver.step ownIp event = some next) (kept : next.overflowed = false) :
    Faithful next := by
  cases event with
  | receive reception =>
      simp only [ChatReceiver.step] at happens
      split at happens
      all_goals
        cases happens
        exact ⟨faithful.once, faithful.acked, faithful.acking⟩
  | check reception =>
      simp only [ChatReceiver.step] at happens
      split at happens
      · split at happens
        · next known =>
            cases happens
            refine ⟨faithful.once, faithful.acked, fun other listed => ?_⟩
            rcases List.mem_append.mp listed with before | now
            · exact faithful.acking other before
            · rw [List.mem_singleton.mp now]
              exact meets known
        · cases happens
          exact ⟨faithful.once, faithful.acked, faithful.acking⟩
      · cases happens
  | append reception =>
      simp only [ChatReceiver.step] at happens
      split at happens
      · cases happens
        obtain ⟨-, within⟩ := Bool.or_eq_false_iff.mp kept
        have fits : receiver.log.entries.length < MAX_HISTORY :=
          Nat.lt_of_not_le (of_decide_eq_false within)
        refine ⟨faithful.once.append fits meets,
          fun other listed => (faithful.acked other listed).append fits,
          fun other listed => ?_⟩
        rcases List.mem_append.mp listed with before | now
        · exact (faithful.acking other before).append fits
        · rw [List.mem_singleton.mp now]
          exact inHistory_appended fits
      · cases happens
  | ack reception =>
      simp only [ChatReceiver.step] at happens
      split at happens
      · next waiting =>
          cases happens
          refine ⟨faithful.once, fun other listed => ?_,
            fun other listed => faithful.acking other (List.mem_of_mem_erase listed)⟩
          rcases List.mem_append.mp listed with before | now
          · exact faithful.acked other before
          · rw [List.mem_singleton.mp now]
            exact faithful.acking reception waiting
      · cases happens
  | lose reception =>
      simp only [ChatReceiver.step] at happens
      split at happens
      · cases happens
        exact ⟨faithful.once, faithful.acked,
          fun other listed => faithful.acking other (List.mem_of_mem_erase listed)⟩
      · cases happens

/-- A history that has dropped a message stays one that has. -/
theorem overflowed_step (happens : receiver.step ownIp event = some next)
    (kept : next.overflowed = false) : receiver.overflowed = false := by
  cases event with
  | append reception =>
      simp only [ChatReceiver.step] at happens
      split at happens
      · cases happens
        exact (Bool.or_eq_false_iff.mp kept).1
      · cases happens
  | receive reception | check reception | ack reception | lose reception =>
      simp only [ChatReceiver.step] at happens
      repeat' split at happens
      all_goals
        cases happens
        try exact kept

/-! ### Runs -/

/-- A device that starts with a history. -/
def ChatReceiver.starting (log : ChatLog) : ChatReceiver :=
  { log := log }

namespace ChatReceiver

/-- However the connections interleave and whatever is sent: in every state of a run whose steps
meet the condition, each message is in the history once and every acknowledgement is true, as long
as the history has dropped nothing. -/
theorem reception_honest (events : List ReceptionEvent) {final : ChatReceiver}
    (once : OncePerSender log)
    (reached : Runs.run (ChatReceiver.step ownIp) events (starting log) = some final)
    (along : Runs.Along (ChatReceiver.step ownIp) ReceivesOnce events (starting log)) :
    Honest final := by
  have faithful : final.overflowed = false → Faithful final := by
    refine Runs.run_invariant (fun receiver => receiver.overflowed = false → Faithful receiver)
      (fun event receiver next before meets happens kept => ?_) (fun _ => ?_) along reached
    · exact faithful_step (before (overflowed_step happens kept)) meets happens kept
    · exact ⟨once, fun _ listed => (nomatch listed), fun _ listed => (nomatch listed)⟩
  intro kept
  exact ⟨(faithful kept).once, (faithful kept).acked⟩

/-- A frame of a direct message. -/
def directFrame (id text : String) : ChatFrame where
  id := id
  scope := .direct
  groupId := none
  text := text
  sentAt := 0

def fromAlice (id text : String) : Reception :=
  { peerIp := Ipv4Addr.ofOctets 10 0 0 2, frame := directFrame id text }

def fromBob (id text : String) : Reception :=
  { peerIp := Ipv4Addr.ofOctets 10 0 0 3, frame := directFrame id text }

/-- A message that is sent again because its acknowledgement was lost. -/
def sentAgain : List ReceptionEvent :=
  [.receive (fromAlice "x" "hello"), .check (fromAlice "x" "hello"),
    .append (fromAlice "x" "hello"), .lose (fromAlice "x" "hello"),
    .receive (fromAlice "x" "hello"), .check (fromAlice "x" "hello"),
    .ack (fromAlice "x" "hello")]

theorem reception_honest_again :
    ∃ final, Runs.run (ChatReceiver.step (Ipv4Addr.ofOctets 10 0 0 1)) sentAgain
        (starting {}) = some final ∧
      final.acks = [fromAlice "x" "hello"] ∧ Honest final := by
  have once : OncePerSender {} := List.nodup_nil
  have along : Runs.Along (ChatReceiver.step (Ipv4Addr.ofOctets 10 0 0 1)) ReceivesOnce sentAgain
      (starting {}) := by decide
  exact ⟨_, rfl, rfl, reception_honest sentAgain once rfl along⟩

/-- A second member's message with the id of another one is acknowledged and not recorded. -/
def borrowedId : List ReceptionEvent :=
  [.receive (fromAlice "x" "hello"), .check (fromAlice "x" "hello"),
    .append (fromAlice "x" "hello"), .ack (fromAlice "x" "hello"),
    .receive (fromBob "x" "bye"), .check (fromBob "x" "bye"), .ack (fromBob "x" "bye")]

/-- The same message on two connections at once is recorded twice. -/
def sentTwice : List ReceptionEvent :=
  [.receive (fromAlice "x" "hello"), .receive (fromAlice "x" "hello"),
    .check (fromAlice "x" "hello"), .check (fromAlice "x" "hello"),
    .append (fromAlice "x" "hello"), .append (fromAlice "x" "hello")]

theorem reception_dishonest :
    (∃ final, Runs.run (ChatReceiver.step (Ipv4Addr.ofOctets 10 0 0 1)) borrowedId
        (starting {}) = some final ∧
      final.overflowed = false ∧ fromBob "x" "bye" ∈ final.acks ∧
      ¬ InHistory final.log (fromBob "x" "bye")) ∧
    ∃ final, Runs.run (ChatReceiver.step (Ipv4Addr.ofOctets 10 0 0 1)) sentTwice
        (starting {}) = some final ∧
      final.overflowed = false ∧ ¬ OncePerSender final.log :=
  ⟨⟨_, rfl, rfl, by decide, by decide⟩, ⟨_, rfl, rfl, by decide⟩⟩

end ChatReceiver

end PeerCove
