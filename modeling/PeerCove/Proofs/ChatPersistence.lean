/-
Module: PeerCove.Proofs.ChatPersistence
Layer: Proofs
Purpose: Over any run of the chat history, its file reads back as the entries in memory, a cleared
  conversation stays cleared, and a client that pages through the history gets all of it.
Trusted boundary: none
Main exports: ChatFile.Stored, ChatFile.run_stored, ChatFile.run_entries, ChatLog.pages,
  history_persisted
-/
import PeerCove.Chat.ChatFile
import PeerCove.Library.Paging

namespace PeerCove

@[simp] theorem ChatMessageInfo.persisted_seq (entry : ChatMessageInfo) :
    entry.persisted.seq = entry.seq := rfl

@[simp] theorem ChatMessageInfo.persisted_persisted (entry : ChatMessageInfo) :
    entry.persisted.persisted = entry.persisted := rfl

theorem ChatMessageInfo.isDirectWith_persisted (ip : Ipv4Addr) (entry : ChatMessageInfo) :
    ChatLog.isDirectWith ip entry.persisted = ChatLog.isDirectWith ip entry := rfl

namespace ChatFile

/-! ### The newest lines -/

theorem newest_of_short {lines : List ChatMessageInfo} (short : lines.length ≤ MAX_HISTORY) :
    newest lines = lines := by
  rw [newest, Nat.sub_eq_zero_of_le short, List.drop_zero]

theorem length_newest (lines : List ChatMessageInfo) : (newest lines).length ≤ MAX_HISTORY := by
  rw [newest, List.length_drop]
  omega

/-- A line more drops the oldest one when there are too many. -/
theorem newest_concat (lines : List ChatMessageInfo) (line : ChatMessageInfo) :
    newest (lines ++ [line]) = ChatLog.capped (newest lines ++ [line]) := by
  have positive : 0 < MAX_HISTORY := by decide
  by_cases short : lines.length < MAX_HISTORY
  · have fits : (lines ++ [line]).length ≤ MAX_HISTORY := by
      simp
      omega
    rw [newest_of_short fits, newest_of_short (Nat.le_of_lt short), ChatLog.capped, if_neg]
    omega
  · have full : (newest lines).length = MAX_HISTORY := by
      rw [newest, List.length_drop]
      omega
    have filled : newest lines ≠ [] := by
      intro empty
      rw [empty] at full
      exact absurd full (Nat.ne_of_lt positive)
    have start : (lines ++ [line]).length - MAX_HISTORY = lines.length - MAX_HISTORY + 1 := by
      rw [List.length_append, List.length_singleton]
      omega
    rw [ChatLog.capped, if_pos (by simp; omega), List.tail_append_of_ne_nil filled, newest, newest,
      List.tail_drop, ← List.drop_append_of_le_length (by omega), start]

theorem capped_map (entries : List ChatMessageInfo) :
    ChatLog.capped (entries.map ChatMessageInfo.persisted)
      = (ChatLog.capped entries).map ChatMessageInfo.persisted := by
  rw [ChatLog.capped, ChatLog.capped, List.length_map]
  split
  · rw [List.map_tail]
  · rfl

theorem capped_sublist (entries : List ChatMessageInfo) :
    (ChatLog.capped entries).Sublist entries := by
  rw [ChatLog.capped]
  split
  · exact List.tail_sublist entries
  · exact List.Sublist.refl entries

/-! ### The invariant -/

/-- The file reads back as the history, and the entries are numbered in their order. -/
structure Stored (file : ChatFile) : Prop where
  reads : newest file.lines = file.log.entries.map ChatMessageInfo.persisted
  ordered : file.log.entries.Pairwise (fun one two => one.seq < two.seq)
  below : ∀ entry ∈ file.log.entries, entry.seq < file.log.nextSeq

theorem Stored.length_le {file : ChatFile} (stored : Stored file) :
    file.log.entries.length ≤ MAX_HISTORY := by
  have short := length_newest file.lines
  rw [stored.reads, List.length_map] at short
  exact short

theorem stored_empty : Stored {} where
  reads := rfl
  ordered := List.Pairwise.nil
  below := by simp

/-- A file that was written anew reads back. -/
theorem rewrite_reads {file : ChatFile} (short : file.log.entries.length ≤ MAX_HISTORY) :
    newest file.rewrite.lines = file.rewrite.log.entries.map ChatMessageInfo.persisted := by
  apply newest_of_short
  rw [rewrite, List.length_map]
  exact short

theorem Stored.append {file : ChatFile} (stored : Stored file) (entry : ChatMessageInfo) :
    Stored (file.append entry) := by
  have short : (ChatLog.capped (file.log.entries
      ++ [{ entry with seq := file.log.nextSeq }])).length ≤ MAX_HISTORY := by
    have most := stored.length_le
    rw [ChatLog.capped]
    split
    · simp
      exact most
    · omega
  have log : (file.append entry).log = (file.log.append entry).1 := by
    rw [ChatFile.append]
    dsimp only
    rw [writeEntry]
    split <;> rfl
  constructor
  · rw [log, ChatFile.append]
    dsimp only
    rw [writeEntry]
    split
    · exact rewrite_reads short
    · dsimp only [ChatLog.append]
      rw [newest_concat, stored.reads, ← capped_map, List.map_append]
      rfl
  · rw [log]
    refine List.Pairwise.sublist (capped_sublist _) ?_
    rw [List.pairwise_append]
    refine ⟨stored.ordered, List.pairwise_singleton _ _, fun old listed new isNew => ?_⟩
    rw [List.mem_singleton.mp isNew]
    exact stored.below old listed
  · rw [log]
    intro found listed
    rcases ChatLog.mem_append listed with old | rfl
    · exact Nat.lt_succ_of_lt (stored.below found old)
    · exact Nat.lt_succ_self _

theorem setFailed_persisted (log : ChatLog) (seq : Nat) (failed : Bool) :
    (log.setFailed seq failed).entries.map ChatMessageInfo.persisted
      = log.entries.map ChatMessageInfo.persisted := by
  rw [ChatLog.setFailed]
  apply map_updateFirst
  intro entry
  rfl

/-- The order of the entries is that of their numbers. -/
theorem ordered_iff {entries : List ChatMessageInfo} :
    entries.Pairwise (fun one two => one.seq < two.seq) ↔
      (entries.map ChatMessageInfo.seq).Pairwise (· < ·) :=
  List.pairwise_map.symm

theorem Stored.setFailed {file : ChatFile} (stored : Stored file) (seq : Nat) (failed : Bool) :
    Stored { file with log := file.log.setFailed seq failed } := by
  have numbers := ChatLog.setFailed_seqs file.log seq failed
  constructor
  · dsimp only
    rw [setFailed_persisted]
    exact stored.reads
  · rw [ordered_iff]
    dsimp only
    rw [numbers]
    exact ordered_iff.mp stored.ordered
  · intro entry listed
    have member := List.mem_map_of_mem (f := ChatMessageInfo.seq) listed
    dsimp only at member
    rw [numbers] at member
    obtain ⟨old, isOld, same⟩ := List.mem_map.mp member
    rw [← same]
    exact stored.below old isOld

/-- Deleting entries and writing the file anew. -/
theorem Stored.delete {file : ChatFile} (stored : Stored file) {log : ChatLog}
    (fewer : log.entries.Sublist file.log.entries) (number : log.nextSeq = file.log.nextSeq) :
    Stored (rewrite { file with log := log }) := by
  constructor
  · exact rewrite_reads (Nat.le_trans fewer.length_le stored.length_le)
  · exact stored.ordered.sublist fewer
  · intro entry listed
    change entry.seq < log.nextSeq
    rw [number]
    exact stored.below entry (fewer.subset listed)

theorem clearDirect_sublist (log : ChatLog) (ip : Ipv4Addr) :
    (log.clearDirect ip).entries.Sublist log.entries := by
  rw [ChatLog.clearDirect_entries]
  exact List.filter_sublist

theorem clearDirect_nextSeq (log : ChatLog) (ip : Ipv4Addr) :
    (log.clearDirect ip).nextSeq = log.nextSeq := by
  rw [ChatLog.clearDirect]
  split <;> rfl

theorem Stored.clearDirect {file : ChatFile} (stored : Stored file) (ip : Ipv4Addr) :
    Stored (file.clearDirect ip) := by
  rw [ChatFile.clearDirect]
  split
  · exact stored
  · exact stored.delete (clearDirect_sublist file.log ip) (clearDirect_nextSeq file.log ip)

theorem Stored.clearAll {file : ChatFile} (stored : Stored file) : Stored file.clearAll :=
  stored.delete (List.nil_sublist _) rfl

/-- The number that a restart goes on with is above those it read. -/
theorem lt_numberAfter {entries : List ChatMessageInfo}
    (ordered : entries.Pairwise (fun one two => one.seq < two.seq)) :
    ∀ entry ∈ entries, entry.seq < numberAfter entries := by
  intro entry listed
  cases isLast : entries.getLast? with
  | none =>
      rw [List.getLast?_eq_none_iff.mp isLast] at listed
      cases listed
  | some last =>
      obtain ⟨front, split⟩ := List.getLast?_eq_some_iff.mp isLast
      rw [numberAfter, isLast]
      dsimp only
      rw [split] at listed ordered
      rcases List.mem_append.mp listed with before | same
      · have less := (List.pairwise_append.mp ordered).2.2 entry before last List.mem_cons_self
        exact Nat.lt_succ_of_lt less
      · rw [List.mem_singleton.mp same]
        exact Nat.lt_succ_self _

/-- A restart has the entries that were in memory, without the marks of failure. -/
theorem Stored.reload_entries {file : ChatFile} (stored : Stored file) :
    file.reload.log.entries = file.log.entries.map ChatMessageInfo.persisted := by
  rw [← stored.reads, ChatFile.reload]

theorem Stored.reload {file : ChatFile} (stored : Stored file) : Stored file.reload := by
  have ordered : file.reload.log.entries.Pairwise (fun one two => one.seq < two.seq) := by
    rw [stored.reload_entries, List.pairwise_map]
    exact stored.ordered
  constructor
  · have lines : file.reload.lines = file.lines := by
      rw [ChatFile.reload]
    rw [stored.reload_entries, lines, List.map_map, stored.reads]
    rfl
  · exact ordered
  · have number : file.reload.log.nextSeq = numberAfter file.reload.log.entries := by
      rw [ChatFile.reload]
    rw [number]
    exact lt_numberAfter ordered

theorem Stored.step {op : ChatOp} {file next : ChatFile} (stored : Stored file)
    (happens : op.step file = some next) : Stored next := by
  cases op with
  | append entry => cases happens; exact stored.append entry
  | markFailed seq => cases happens; exact stored.setFailed seq true
  | clearFailed seq => cases happens; exact stored.setFailed seq false
  | clearDirect ip => cases happens; exact stored.clearDirect ip
  | clearAll => cases happens; exact stored.clearAll
  | reload =>
      rw [ChatOp.step, Option.some.injEq] at happens
      subst happens
      exact stored.reload

theorem run_stored {ops : List ChatOp} {file final : ChatFile} (stored : Stored file)
    (reached : Runs.run ChatOp.step ops file = some final) : Stored final :=
  Runs.run_keeps Stored (fun _ _ _ holds happens => holds.step happens) stored reached

/-! ### Where entries come from -/

/-- After one state, another one has only messages of the first, and messages appended since. -/
def From (file next : ChatFile) : Prop :=
  ∃ new, next.appended = file.appended ++ new ∧
    (next.log.entries.map ChatMessageInfo.persisted).Sublist
      ((file.log.entries ++ new).map ChatMessageInfo.persisted)

theorem From.refl (file : ChatFile) : From file file :=
  ⟨[], by simp, by simp⟩

theorem From.trans {one two three : ChatFile} (first : From one two) (second : From two three) :
    From one three := by
  obtain ⟨new, appended, kept⟩ := first
  obtain ⟨newer, appendedToo, keptToo⟩ := second
  refine ⟨new ++ newer, ?_, keptToo.trans ?_⟩
  · rw [appendedToo, appended, List.append_assoc]
  · rw [← List.append_assoc, List.map_append, @List.map_append _ _ _ (one.log.entries ++ new)]
    exact kept.append_right _

/-- A step that appends nothing and keeps some of the entries. -/
theorem From.of_sublist {file next : ChatFile} (same : next.appended = file.appended)
    (kept : (next.log.entries.map ChatMessageInfo.persisted).Sublist
      (file.log.entries.map ChatMessageInfo.persisted)) : From file next :=
  ⟨[], by simpa using same, by simpa using kept⟩

theorem append_from (file : ChatFile) (entry : ChatMessageInfo) :
    From file (file.append entry) := by
  refine ⟨[{ entry with seq := file.log.nextSeq }], ?_, ?_⟩
  · rw [ChatFile.append]
    dsimp only
    rw [writeEntry]
    split <;> rfl
  · have log : (file.append entry).log = (file.log.append entry).1 := by
      rw [ChatFile.append]
      dsimp only
      rw [writeEntry]
      split <;> rfl
    rw [log]
    exact (capped_sublist _).map _

theorem step_from {op : ChatOp} {file next : ChatFile} (stored : Stored file)
    (happens : op.step file = some next) : From file next := by
  cases op with
  | append entry => cases happens; exact append_from file entry
  | markFailed seq =>
      cases happens
      refine From.of_sublist rfl ?_
      rw [markFailed, ChatLog.markFailed, setFailed_persisted]
  | clearFailed seq =>
      cases happens
      refine From.of_sublist rfl ?_
      rw [clearFailed, ChatLog.clearFailed, setFailed_persisted]
  | clearDirect ip =>
      cases happens
      rw [ChatFile.clearDirect]
      split
      · exact From.refl file
      · exact From.of_sublist rfl ((clearDirect_sublist file.log ip).map _)
  | clearAll =>
      cases happens
      exact From.of_sublist rfl (List.nil_sublist _)
  | reload =>
      rw [ChatOp.step, Option.some.injEq] at happens
      subst happens
      have appended : file.reload.appended = file.appended := by
        rw [ChatFile.reload]
      refine From.of_sublist appended ?_
      rw [stored.reload_entries, List.map_map]
      exact List.Sublist.refl _

/-- A run of the history keeps or drops its messages, and has the messages it appended. -/
theorem run_entries {ops : List ChatOp} {file final : ChatFile} (stored : Stored file)
    (reached : Runs.run ChatOp.step ops file = some final) : From file final := by
  have kept : Stored final ∧ From file final := by
    refine Runs.run_keeps (fun next => Stored next ∧ From file next) ?_ ⟨stored, From.refl file⟩
      reached
    intro op middle next holds happens
    exact ⟨holds.1.step happens, holds.2.trans (step_from holds.1 happens)⟩
  exact kept.2

/-- A conversation that was cleared does not come back: its messages were appended later. -/
theorem clearDirect_gone {ops : List ChatOp} {file final : ChatFile} (stored : Stored file)
    {ip : Ipv4Addr} (reached : Runs.run ChatOp.step ops (file.clearDirect ip) = some final) :
    ∃ new, final.appended = file.appended ++ new ∧
      ∀ entry ∈ final.log.entries, ChatLog.isDirectWith ip entry = true →
        ∃ sent ∈ new, entry.persisted = sent.persisted := by
  obtain ⟨new, appended, kept⟩ := run_entries (stored.clearDirect ip) reached
  have entries : (file.clearDirect ip).log.entries
      = file.log.entries.filter (fun entry => !ChatLog.isDirectWith ip entry) := by
    rw [← ChatLog.clearDirect_entries, ChatFile.clearDirect]
    split
    · next same => exact ((clearDirect_sublist file.log ip).eq_of_length same).symm
    · rfl
  have unchanged : (file.clearDirect ip).appended = file.appended := by
    rw [ChatFile.clearDirect]
    split <;> rfl
  rw [unchanged] at appended
  refine ⟨new, appended, fun entry listed direct => ?_⟩
  have member := kept.subset (List.mem_map_of_mem listed)
  obtain ⟨source, isSource, same⟩ := List.mem_map.mp member
  rcases List.mem_append.mp isSource with old | sent
  · -- no message of the conversation was left
    rw [entries] at old
    have other := (List.mem_filter.mp old).2
    rw [← ChatMessageInfo.isDirectWith_persisted, same, ChatMessageInfo.isDirectWith_persisted,
      direct] at other
    cases other
  · exact ⟨source, sent, same.symm⟩

end ChatFile

/-! ### Pages -/

theorem ChatLog.pageFrom_prefix (bytes count : Nat) (entries : List ChatMessageInfo) :
    pageFrom bytes count entries <+: entries := by
  induction entries generalizing bytes count with
  | nil => exact List.prefix_refl []
  | cons entry rest ih =>
      rw [pageFrom]
      split
      · exact List.nil_prefix
      · exact List.cons_prefix_cons.mpr ⟨rfl, ih _ _⟩

/-- The first message is in the page, however long it is. -/
theorem ChatLog.pageFrom_ne_nil {bytes : Nat} {entries : List ChatMessageInfo}
    (filled : entries ≠ []) : pageFrom bytes 0 entries ≠ [] := by
  cases entries with
  | nil => exact absurd rfl filled
  | cons entry rest => simp [pageFrom]

theorem ChatLog.pages (log : ChatLog) :
    Paging.Pages ChatMessageInfo.seq log.entries (fun after => (log.fetch after).2) where
  begins := fun _ => pageFrom_prefix 0 0 _
  goesOn := fun _ filled => pageFrom_ne_nil filled

open ChatFile in
/-- After any run, the file reads back as the entries in memory, the newest ten thousand at most; a
conversation that is cleared then has no message later but those that are appended later; and a
client that fetches page after page has every message after its position after finitely many
fetches, once and in the order of the numbers. -/
theorem history_persisted {ops : List ChatOp} {file : ChatFile}
    (reached : Runs.run ChatOp.step ops {} = some file) :
    file.reload.log.entries = file.log.entries.map ChatMessageInfo.persisted ∧
      file.log.entries.length ≤ MAX_HISTORY ∧
      (∀ (ip : Ipv4Addr) (later : List ChatOp) (final : ChatFile),
        Runs.run ChatOp.step later (file.clearDirect ip) = some final →
        ∃ new, final.appended = file.appended ++ new ∧
          ∀ entry ∈ final.log.entries, ChatLog.isDirectWith ip entry = true →
            ∃ sent ∈ new, entry.persisted = sent.persisted) ∧
      (∀ after, ∃ fetches, Paging.readAll ChatMessageInfo.seq
        (fun cursor => (file.log.fetch cursor).2) fetches after
          = some (file.log.entries.filter (fun entry => after < entry.seq))) ∧
      file.log.entries.Pairwise (fun one two => one.seq < two.seq) := by
  have stored := run_stored stored_empty reached
  refine ⟨stored.reload_entries, stored.length_le, ?_, ?_, stored.ordered⟩
  · intro ip later final goesOn
    exact clearDirect_gone stored goesOn
  · intro after
    exact ⟨_, Paging.readAll_eq stored.ordered file.log.pages (Nat.lt_succ_self _)⟩

/-- A message of the conversation with 10.0.0.2. -/
def chatLine (id : String) : ChatMessageInfo where
  seq := 0
  id := id
  scope := .direct
  fromIp := .ofOctets 10 0 0 1
  toIp := some (.ofOctets 10 0 0 2)
  text := "hello"
  sentAt := 1000

/-- A conversation that is cleared, and goes on. -/
def clearedChat : ChatFile :=
  ((({} : ChatFile).append (chatLine "a")).clearDirect (.ofOctets 10 0 0 2)).append (chatLine "b")

theorem history_persisted_cleared :
    clearedChat.reload.log.entries = clearedChat.log.entries.map ChatMessageInfo.persisted :=
  have reached : Runs.run ChatOp.step
      [.append (chatLine "a"), .clearDirect (.ofOctets 10 0 0 2), .append (chatLine "b")] {}
      = some clearedChat := rfl
  (history_persisted reached).1

end PeerCove
