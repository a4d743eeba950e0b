/-
Module: PeerCove.Proofs.ChatNumbers
Layer: Proofs
Purpose: When the numbers of chat messages are never used again: exactly as long as no restart finds
  the newest message deleted.
Trusted boundary: none
Main exports: ChatFile.Numbered, ChatFile.KeepsNewest, numbers_never_reused_iff, number_used_twice
-/
import PeerCove.Proofs.ChatPersistence

namespace PeerCove

namespace ChatFile

/-- Every message has a larger number than those before it, and so will the next one. -/
def Numbered (file : ChatFile) : Prop :=
  file.appended.Pairwise (fun one two => one.seq < two.seq) ∧
    ∀ message ∈ file.appended, message.seq < file.log.nextSeq

instance (file : ChatFile) : Decidable file.Numbered :=
  inferInstanceAs (Decidable (_ ∧ _))

/-- A restart happens only while the last message of the history is the newest of all, or none was
ever sent. -/
def KeepsNewest (op : ChatOp) (file : ChatFile) : Prop :=
  op = .reload → numberAfter file.log.entries = file.log.nextSeq

instance (op : ChatOp) (file : ChatFile) : Decidable (KeepsNewest op file) :=
  inferInstanceAs (Decidable (_ → _))

theorem keepsNewest_of_ne {op : ChatOp} {file : ChatFile} (notReload : op ≠ .reload) :
    KeepsNewest op file :=
  fun reload => absurd reload notReload

/-- The next number follows one that was given, and the entries are messages that were sent. -/
structure Traced (file : ChatFile) : Prop where
  stored : Stored file
  sent : ∀ entry ∈ file.log.entries, ∃ message ∈ file.appended, message.seq = entry.seq
  next : file.log.nextSeq = 1 ∨ ∃ message ∈ file.appended, message.seq + 1 = file.log.nextSeq

theorem traced_empty : Traced {} where
  stored := stored_empty
  sent := by simp
  next := Or.inl rfl

/-- What came from a state whose entries were sent was sent. -/
theorem Traced.sent_of_from {file next : ChatFile} (traced : Traced file) (comes : From file next) :
    ∀ entry ∈ next.log.entries, ∃ message ∈ next.appended, message.seq = entry.seq := by
  intro entry listed
  obtain ⟨new, appended, kept⟩ := comes
  obtain ⟨source, isSource, same⟩ := List.mem_map.mp (kept.subset (List.mem_map_of_mem listed))
  have number : source.seq = entry.seq := by
    simpa using congrArg ChatMessageInfo.seq same
  rw [appended]
  rcases List.mem_append.mp isSource with old | isNew
  · obtain ⟨message, member, isSame⟩ := traced.sent source old
    exact ⟨message, List.mem_append_left _ member, isSame.trans number⟩
  · exact ⟨source, List.mem_append_right _ isNew, number⟩

theorem append_log (file : ChatFile) (entry : ChatMessageInfo) :
    (file.append entry).appended = file.appended ++ [{ entry with seq := file.log.nextSeq }] ∧
      (file.append entry).log.nextSeq = file.log.nextSeq + 1 := by
  rw [ChatFile.append]
  dsimp only
  rw [writeEntry]
  split <;> exact ⟨rfl, rfl⟩

/-- The number with which a restart goes on. -/
theorem Stored.reload_nextSeq {file : ChatFile} (stored : Stored file) :
    file.reload.log.nextSeq = numberAfter file.log.entries := by
  have number : file.reload.log.nextSeq = numberAfter file.reload.log.entries := by
    rw [ChatFile.reload]
  rw [number, stored.reload_entries, numberAfter, numberAfter, List.getLast?_map]
  cases file.log.entries.getLast? with
  | none => rfl
  | some last => rfl

/-- An operation other than these two neither sends a message nor counts. -/
theorem step_quiet {op : ChatOp} {file next : ChatFile} (happens : op.step file = some next)
    (notReload : op ≠ .reload) (notAppend : ∀ entry, op ≠ .append entry) :
    next.appended = file.appended ∧ next.log.nextSeq = file.log.nextSeq := by
  cases op with
  | append entry => exact absurd rfl (notAppend entry)
  | markFailed seq => cases happens; exact ⟨rfl, rfl⟩
  | clearFailed seq => cases happens; exact ⟨rfl, rfl⟩
  | clearDirect ip =>
      cases happens
      rw [ChatFile.clearDirect]
      split
      · exact ⟨rfl, rfl⟩
      · exact ⟨rfl, clearDirect_nextSeq file.log ip⟩
  | clearAll => cases happens; exact ⟨rfl, rfl⟩
  | reload => exact absurd rfl notReload

theorem Traced.step {op : ChatOp} {file next : ChatFile} (traced : Traced file)
    (happens : op.step file = some next) : Traced next := by
  refine ⟨traced.stored.step happens,
    traced.sent_of_from (step_from traced.stored happens), ?_⟩
  cases isOp : op with
  | append entry =>
      rw [isOp] at happens
      cases happens
      obtain ⟨appended, number⟩ := append_log file entry
      rw [appended, number]
      exact Or.inr ⟨_, List.mem_append_right _ List.mem_cons_self, rfl⟩
  | reload =>
      rw [isOp, ChatOp.step, Option.some.injEq] at happens
      subst happens
      have appended : file.reload.appended = file.appended := by
        rw [ChatFile.reload]
      rw [traced.stored.reload_nextSeq, appended, numberAfter]
      cases isLast : file.log.entries.getLast? with
      | none => exact Or.inl rfl
      | some last =>
          obtain ⟨message, member, same⟩ := traced.sent last (List.mem_of_getLast? isLast)
          exact Or.inr ⟨message, member, congrArg (· + 1) same⟩
  | _ =>
      obtain ⟨appended, number⟩ := step_quiet happens (by rw [isOp]; simp) (by rw [isOp]; simp)
      rw [appended, number]
      exact traced.next

/-- A restart never goes on with a larger number. -/
theorem Traced.numberAfter_le {file : ChatFile} (traced : Traced file) :
    numberAfter file.log.entries ≤ file.log.nextSeq := by
  rw [numberAfter]
  cases isLast : file.log.entries.getLast? with
  | none =>
      rcases traced.next with first | ⟨message, _, number⟩ <;> (dsimp only; omega)
  | some last => exact traced.stored.below last (List.mem_of_getLast? isLast)

/-- In a well-numbered state, a step leaves the numbering well exactly if it is no restart that
finds the newest message deleted. -/
theorem numbered_step {op : ChatOp} {file next : ChatFile} (traced : Traced file)
    (numbered : Numbered file) (happens : op.step file = some next) :
    Numbered next ↔ KeepsNewest op file := by
  cases isOp : op with
  | append entry =>
      rw [isOp] at happens
      cases happens
      obtain ⟨appended, number⟩ := append_log file entry
      refine iff_of_true ?_ (keepsNewest_of_ne (by simp))
      rw [Numbered, appended, number]
      constructor
      · rw [List.pairwise_append]
        refine ⟨numbered.1, List.pairwise_singleton _ _, fun old listed new isNew => ?_⟩
        rw [List.mem_singleton.mp isNew]
        exact numbered.2 old listed
      · intro message member
        rcases List.mem_append.mp member with old | new
        · exact Nat.lt_succ_of_lt (numbered.2 message old)
        · rw [List.mem_singleton.mp new]
          exact Nat.lt_succ_self _
  | reload =>
      rw [isOp, ChatOp.step, Option.some.injEq] at happens
      subst happens
      have appended : file.reload.appended = file.appended := by
        rw [ChatFile.reload]
      rw [Numbered, appended, traced.stored.reload_nextSeq]
      constructor
      · intro well _
        apply Nat.le_antisymm traced.numberAfter_le
        rcases traced.next with first | ⟨message, member, number⟩
        · rw [first, numberAfter]
          cases file.log.entries.getLast? <;> simp
        · rw [← number]
          exact well.2 message member
      · intro keeps
        rw [keeps rfl]
        exact numbered
  | _ =>
      obtain ⟨appended, number⟩ := step_quiet happens (by rw [isOp]; simp) (by rw [isOp]; simp)
      refine iff_of_true ?_ (keepsNewest_of_ne (by simp))
      rw [Numbered, appended, number]
      exact numbered

end ChatFile

open ChatFile in
/-- In every state of a run each message has a larger number than all before it, and so will the
next one, exactly if no restart of the run happens while the newest message is deleted. -/
theorem numbers_never_reused_iff {ops : List ChatOp} {final : ChatFile}
    (reached : Runs.run ChatOp.step ops {} = some final) :
    (∀ done, done <+: ops → ∀ middle, Runs.run ChatOp.step done {} = some middle →
        Numbered middle) ↔
      Runs.Along ChatOp.step KeepsNewest ops {} := by
  refine Runs.safe_iff_along Traced Numbered ?_ ?_ traced_empty ?_ reached
  · exact fun op file next traced happens => traced.step happens
  · exact fun op file next traced numbered happens => numbered_step traced numbered happens
  · exact ⟨List.Pairwise.nil, by simp⟩

/-- The conversation is cleared and a notice is written before the daemon starts again. -/
theorem numbers_never_reused_notice :
    ∃ final, Runs.run ChatOp.step
        [.append (chatLine "a"), .clearDirect (.ofOctets 10 0 0 2),
          .append { chatLine "b" with scope := .network, toIp := none }, .reload] {}
          = some final ∧
      final.appended.map ChatMessageInfo.seq = [1, 2] ∧
      ∀ done, done <+: [ChatOp.append (chatLine "a"), .clearDirect (.ofOctets 10 0 0 2),
          .append { chatLine "b" with scope := .network, toIp := none }, .reload] →
        ∀ middle, Runs.run ChatOp.step done {} = some middle → middle.Numbered :=
  ⟨_, rfl, by decide, (numbers_never_reused_iff rfl).mpr (by decide)⟩

/-- The daemon starts again right after the conversation was cleared, and gives the number of the
deleted message to the next one. -/
theorem number_used_twice :
    ∃ final, Runs.run ChatOp.step
        [.append (chatLine "a"), .clearDirect (.ofOctets 10 0 0 2), .reload,
          .append (chatLine "b")] {} = some final ∧
      final.appended.map ChatMessageInfo.seq = [1, 1] :=
  ⟨_, rfl, by decide⟩

end PeerCove
