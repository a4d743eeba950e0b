/-
Module: PeerCove.Chat.ChatLog
Layer: Chat
Purpose: The chat history of one network as the daemon keeps it in memory.
Trusted boundary: the file of the history is left out
Main exports: ChatScope, ChatMessageInfo, ChatLog, ChatLog.append, ChatLog.clearDirect
-/
import PeerCove.Core.Net

namespace PeerCove

/-- `iter_mut().find`: the first entry that fits is changed. -/
def updateFirst {α : Type} (fits : α → Bool) (change : α → α) : List α → List α
  | [] => []
  | entry :: rest =>
      if fits entry then change entry :: rest else entry :: updateFirst fits change rest

/-- What the change leaves alone is as before in the whole list. -/
theorem map_updateFirst {α β : Type} {fits : α → Bool} {change : α → α} {view : α → β}
    (same : ∀ entry, view (change entry) = view entry) (entries : List α) :
    (updateFirst fits change entries).map view = entries.map view := by
  induction entries with
  | nil => rfl
  | cons entry rest ih =>
      rw [updateFirst]
      split
      · rw [List.map_cons, List.map_cons, same]
      · rw [List.map_cons, List.map_cons, ih]

/-- The history keeps this many messages. -/
def MAX_HISTORY : Nat := 10000

inductive ChatScope where
  | direct
  | network
  | group
deriving Repr, DecidableEq

/-- What a notice says, for the notices that a change of the ledger makes. -/
inductive SystemEvent where
  | memberReplaced (name : String)
  | memberInvited (inviter name : String)
  | memberRemovedFromNetwork (ip : String) (name : Option String)
deriving DecidableEq

structure ChatFileInfo where
  name : String
  size : Nat
  transfers : List String := []
deriving DecidableEq

structure ChatMessageInfo where
  seq : Nat
  id : String
  scope : ChatScope
  groupId : Option String := none
  fromIp : Ipv4Addr
  /-- Set for a direct message only. -/
  toIp : Option Ipv4Addr := none
  text : String
  sentAt : Nat
  failed : Bool := false
  file : Option ChatFileInfo := none
  system : Bool := false
  systemEvent : Option SystemEvent := none
deriving DecidableEq

structure ChatLog where
  entries : List ChatMessageInfo := []
  nextSeq : Nat := 1
  /-- Goes up when history is deleted. -/
  generation : Nat := 0
deriving DecidableEq

namespace ChatLog

/-- The newest messages, as many as the history keeps. -/
def capped (entries : List ChatMessageInfo) : List ChatMessageInfo :=
  if entries.length > MAX_HISTORY then entries.tail else entries

/-- The entry with its number, and the history with it. -/
def append (log : ChatLog) (entry : ChatMessageInfo) : ChatLog × ChatMessageInfo :=
  let entry := { entry with seq := log.nextSeq }
  ({ log with entries := capped (log.entries ++ [entry]), nextSeq := log.nextSeq + 1 }, entry)

def setFailed (log : ChatLog) (seq : Nat) (failed : Bool) : ChatLog :=
  { log with
    entries := updateFirst (fun entry => entry.seq = seq)
      (fun entry => { entry with failed := failed }) log.entries }

def markFailed (log : ChatLog) (seq : Nat) : ChatLog :=
  log.setFailed seq true

def clearFailed (log : ChatLog) (seq : Nat) : ChatLog :=
  log.setFailed seq false

def get (log : ChatLog) (seq : Nat) : Option ChatMessageInfo :=
  log.entries.find? (fun entry => entry.seq = seq)

/-- Whether a message belongs to the conversation of the device with `ip`. -/
def isDirectWith (ip : Ipv4Addr) (entry : ChatMessageInfo) : Bool :=
  entry.scope = .direct && (entry.fromIp = ip || entry.toIp = some ip)

/-- The history without the conversation with `ip`. -/
def clearDirect (log : ChatLog) (ip : Ipv4Addr) : ChatLog :=
  let kept := log.entries.filter (fun entry => !isDirectWith ip entry)
  if kept.length = log.entries.length then log
  else { log with entries := kept, generation := log.generation + 1 }

def containsId (log : ChatLog) (id : String) : Bool :=
  log.entries.any (fun entry => entry.id = id)

/-! ### What the operations leave -/

/-- A message that is too old is dropped, and only then is the history shorter. -/
theorem append_entries {log : ChatLog} {entry : ChatMessageInfo}
    (fits : log.entries.length < MAX_HISTORY) :
    (log.append entry).1.entries = log.entries ++ [{ entry with seq := log.nextSeq }] := by
  rw [append, capped, if_neg]
  rw [List.length_append, List.length_singleton]
  omega

theorem mem_append {log : ChatLog} {entry found : ChatMessageInfo}
    (listed : found ∈ (log.append entry).1.entries) :
    found ∈ log.entries ∨ found = { entry with seq := log.nextSeq } := by
  have before : found ∈ log.entries ++ [{ entry with seq := log.nextSeq }] := by
    simp only [append, capped] at listed
    split at listed
    · exact List.mem_of_mem_tail listed
    · exact listed
  rcases List.mem_append.mp before with old | new
  · exact .inl old
  · exact .inr (List.mem_singleton.mp new)

theorem setFailed_seqs (log : ChatLog) (seq : Nat) (failed : Bool) :
    (log.setFailed seq failed).entries.map ChatMessageInfo.seq =
      log.entries.map ChatMessageInfo.seq := by
  rw [setFailed]
  apply map_updateFirst
  intro entry
  rfl

theorem get_some {log : ChatLog} {seq : Nat} {entry : ChatMessageInfo}
    (found : log.get seq = some entry) : entry ∈ log.entries ∧ entry.seq = seq := by
  rw [get] at found
  have fits := List.find?_some found
  exact ⟨List.mem_of_find?_eq_some found, of_decide_eq_true fits⟩

/-- After the clean-up no message of the conversation is left, and all the others are. -/
theorem clearDirect_entries (log : ChatLog) (ip : Ipv4Addr) :
    (log.clearDirect ip).entries = log.entries.filter (fun entry => !isDirectWith ip entry) := by
  rw [clearDirect]
  split
  · next same => exact (List.filter_eq_self.mpr (List.length_filter_eq_length_iff.mp same)).symm
  · rfl

end ChatLog

end PeerCove
