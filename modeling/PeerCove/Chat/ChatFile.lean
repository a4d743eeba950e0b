/-
Module: PeerCove.Chat.ChatFile
Layer: Chat
Purpose: The chat history with its file: lines that are appended, the file written anew when it has
  grown too long or history is deleted, the history read back when the daemon starts, and the pages
  that clients fetch.
Trusted boundary: writes succeed; a line reads back as the entry it was written from; `appended` is
  history
Main exports: ChatLog.fetch, ChatFile, ChatFile.append, ChatFile.clearDirect, ChatFile.reload,
  ChatFile.step
-/
import PeerCove.Chat.ChatLog
import PeerCove.Library.Runs

namespace PeerCove

/-- The file is written anew when it has this many lines. -/
def REWRITE_THRESHOLD : Nat := MAX_HISTORY + 1000

def MAX_CHAT_MESSAGES_PER_REPLY : Nat := 200

def MAX_CHAT_BYTES_PER_REPLY : Nat := 128 * 1024

/-- An entry as it is written: marks of failure are not kept. -/
def ChatMessageInfo.persisted (entry : ChatMessageInfo) : ChatMessageInfo :=
  { entry with failed := false }

namespace ChatLog

def clearAll (log : ChatLog) : ChatLog :=
  { log with entries := [], generation := log.generation + 1 }

def latestSeq (log : ChatLog) : Nat :=
  log.nextSeq - 1

/-- The loop of `fetch`, with the bytes and the number of the messages it has. -/
def pageFrom (bytes count : Nat) : List ChatMessageInfo → List ChatMessageInfo
  | [] => []
  | entry :: rest =>
      let bytes := bytes + (entry.text.utf8ByteSize + 256)
      if count ≠ 0 ∧
          (MAX_CHAT_MESSAGES_PER_REPLY ≤ count ∨ MAX_CHAT_BYTES_PER_REPLY < bytes) then []
      else entry :: pageFrom bytes (count + 1) rest

def fetch (log : ChatLog) (afterSeq : Nat) : Nat × List ChatMessageInfo :=
  (log.latestSeq, pageFrom 0 0 (log.entries.filter (fun entry => entry.seq > afterSeq)))

end ChatLog

/-- The history with its file. -/
structure ChatFile where
  log : ChatLog := {}
  lines : List ChatMessageInfo := []
  fileLines : Nat := 0
  /-- Every message that was ever appended, with its number. -/
  appended : List ChatMessageInfo := []
deriving DecidableEq

namespace ChatFile

/-- What is left of the lines when the oldest are dropped. -/
def newest (lines : List ChatMessageInfo) : List ChatMessageInfo :=
  lines.drop (lines.length - MAX_HISTORY)

/-- The number after that of the last entry. -/
def numberAfter (entries : List ChatMessageInfo) : Nat :=
  match entries.getLast? with
  | some entry => entry.seq + 1
  | none => 1

/-- `load`. -/
def reload (file : ChatFile) : ChatFile :=
  let entries := newest file.lines
  { file with
    log := { entries, nextSeq := numberAfter entries, generation := 0 }
    fileLines := file.lines.length }

def rewrite (file : ChatFile) : ChatFile :=
  { file with
    lines := file.log.entries.map ChatMessageInfo.persisted
    fileLines := file.log.entries.length }

def writeEntry (file : ChatFile) (entry : ChatMessageInfo) : ChatFile :=
  if file.fileLines ≥ REWRITE_THRESHOLD then file.rewrite
  else
    { file with
      lines := file.lines ++ [entry.persisted]
      fileLines := file.fileLines + 1 }

def append (file : ChatFile) (entry : ChatMessageInfo) : ChatFile :=
  let (log, entry) := file.log.append entry
  writeEntry { file with log := log, appended := file.appended ++ [entry] } entry

def markFailed (file : ChatFile) (seq : Nat) : ChatFile :=
  { file with log := file.log.markFailed seq }

def clearFailed (file : ChatFile) (seq : Nat) : ChatFile :=
  { file with log := file.log.clearFailed seq }

/-- The file is written anew only when something was deleted. -/
def clearDirect (file : ChatFile) (ip : Ipv4Addr) : ChatFile :=
  let log := file.log.clearDirect ip
  if log.entries.length = file.log.entries.length then file
  else rewrite { file with log := log }

def clearAll (file : ChatFile) : ChatFile :=
  rewrite { file with log := file.log.clearAll }

end ChatFile

inductive ChatOp where
  | append (entry : ChatMessageInfo)
  | markFailed (seq : Nat)
  | clearFailed (seq : Nat)
  | clearDirect (ip : Ipv4Addr)
  | clearAll
  | reload
deriving DecidableEq

def ChatOp.step (op : ChatOp) (file : ChatFile) : Option ChatFile :=
  match op with
  | .append entry => some (file.append entry)
  | .markFailed seq => some (file.markFailed seq)
  | .clearFailed seq => some (file.clearFailed seq)
  | .clearDirect ip => some (file.clearDirect ip)
  | .clearAll => some file.clearAll
  | .reload => some file.reload

end PeerCove
