/-
Module: PeerCove.Chat.FileTransfer
Layer: Chat
Purpose: A file that a peer sends: where the inbox stores it, how the transfer that was interrupted
  is resumed, and what is kept of one that fails.
Trusted boundary: serde_json and SHA-256 are parameters; the order of a directory listing, what
  arrives and the clock are inputs; file operations and replies succeed
Main exports: Inbox, TransferTools, FileOffer, Incoming, findResumable, uniquePath, receiveLoop,
  receiveBody, receiveFile, sendBody
-/
import PeerCove.Chat.FileNames
import PeerCove.Core.Net
import PeerCove.Library.FreshName
import PeerCove.Library.Table

namespace PeerCove.FileTransfer

/-- The files of the inbox by their names. -/
abbrev Inbox : Type := Table String (List UInt8)

/-- What stands in the file beside an interrupted transfer. -/
structure ResumeMarker where
  sender : String
  name : String
  size : Nat
deriving DecidableEq

/-- What stands in the file beside a received one. -/
structure FileMeta where
  fromIp : Ipv4Addr
  fromName : String
  size : Nat
  receivedUnixMs : Nat

/-- The libraries of a transfer. -/
structure TransferTools where
  printMarker : ResumeMarker → List UInt8
  /-- A file that is read as JSON with the fields of a marker. -/
  readMarker : List UInt8 → Option ResumeMarker
  printMeta : FileMeta → List UInt8
  /-- In hexadecimal digits. -/
  sha256 : List UInt8 → String

structure FileOffer where
  id : String
  name : String
  size : Nat
  resume : Bool

/-- The frames that the receiver answers with. -/
inductive FileReply where
  | reject (id reason : String)
  | accept (id : String) (offset : Nat)
  | done (id : String)
deriving DecidableEq

/-- Why nothing more arrives. -/
inductive Stall where
  | closed
  | timedOut
  | failed (message : String)

/-- What comes after the content. -/
inductive TrailingFrame where
  /-- A frame as `{:?}` prints it, with the id and the digest of a `FileHash`. -/
  | frame (fileHash : Option (String × String)) (debug : String)
  | missing (message : String)

/-- What arrives after an offer is accepted: the bytes that each read returns, some each time, and
what is found behind them. -/
structure Incoming where
  chunks : List (List UInt8)
  stall : Stall
  frame : TrailingFrame

/-! ### Names in the inbox -/

def stripSuffix (s pattern : String) : Option String :=
  if Text.endsWith s pattern then
    some (String.ofList (s.toList.take (s.toList.length - pattern.toList.length)))
  else none

def partName (name : String) : String :=
  name ++ ".part"

def metaName (name : String) : String :=
  name ++ ".pcvmeta"

def resumeName (name : String) : String :=
  name ++ ".pcvresume"

/-- The name before its last dot, and the rest, unless the dot comes first. -/
def nameParts (name : String) : String × String :=
  let last := name.toList.reverse.takeWhile (· ≠ '.')
  let stem := (name.toList.reverse.drop (last.length + 1)).reverse
  if '.' ∈ name.toList ∧ stem ≠ [] then (String.ofList stem, String.ofList ('.' :: last.reverse))
  else (name, "")

/-- The names that are tried one after the other. -/
def numberedName (name : String) : Nat → String
  | 0 => name
  | n + 1 => s!"{(nameParts name).1} ({n + 1}){(nameParts name).2}"

/-- The names that a file or an interrupted transfer has. -/
def takenNames (inbox : Inbox) : List String :=
  inbox.rows.map Prod.fst ++
    (inbox.rows.map Prod.fst).filterMap (fun file => stripSuffix file ".part")

/-- A name that is free, also of an interrupted transfer. -/
def uniquePath (inbox : Inbox) (name : String) : String :=
  (FreshName.search (numberedName name) (takenNames inbox)).getD name

section

variable (tools : TransferTools)

/-- The first marker of this transfer in a listing of the inbox: the name it is to be saved under
and where it goes on. A marker is removed when it is used, or when its file is gone. -/
def findResumable (wanted : ResumeMarker) :
    List String → Inbox → Option (String × Nat) × Inbox
  | [], inbox => (none, inbox)
  | file :: rest, inbox =>
      match stripSuffix file ".pcvresume" with
      | none => findResumable wanted rest inbox
      | some base =>
          if (inbox.get? file).bind tools.readMarker ≠ some wanted then
            findResumable wanted rest inbox
          else
            match inbox.get? (partName base) with
            | none => findResumable wanted rest (inbox.erase file)
            | some part =>
                if part.length > wanted.size then findResumable wanted rest inbox
                else (some (base, part.length), inbox.erase file)

/-! ### The content -/

/-- The reads of the content, none beyond its end: what they return together, and whether it is
complete. -/
def receiveLoop : Nat → List (List UInt8) → List UInt8 × Bool
  | 0, _ => ([], true)
  | _ + 1, [] => ([], false)
  | remaining + 1, chunk :: rest =>
      let read := chunk.take (remaining + 1)
      if read = [] then ([], false)
      else
        let later := receiveLoop (remaining + 1 - read.length) rest
        (read ++ later.1, later.2)

def Stall.message (received size : Nat) : Stall → String
  | .closed => s!"本体の途中で切断されました({received}/{size} バイト)"
  | .timedOut => "転送がタイムアウトしました"
  | .failed message => message

/-- The digest that the sender announces at the end. -/
def announcedHash (id : String) : TrailingFrame → Except String String
  | .missing message => .error message
  | .frame fileHash debug =>
      match fileHash.filter (fun hash => hash.1 = id) with
      | some hash => .ok hash.2
      | none => .error s!"FileHash を期待しましたが別のフレームが届きました: {debug}"

def eqIgnoreAsciiCase (one two : String) : Bool :=
  one.toList.map Text.toAsciiLower = two.toList.map Text.toAsciiLower

/-- How a transfer has ended. -/
structure Reception where
  replies : List FileReply
  result : Except String Unit
  inbox : Inbox

/-- The content goes to the file of the interrupted transfer, which gets its name in the end. -/
def receiveBody (info : FileMeta) (id final : String) (offset : Nat) (incoming : Incoming)
    (inbox : Inbox) : Reception :=
  match if offset > 0 then inbox.get? (partName final) else some [] with
  | none => ⟨[], .error "書きかけを開けません", inbox⟩
  | some existing =>
      if existing.length < offset then ⟨[], .error "書きかけが途中で読めなくなりました", inbox⟩
      else
        let read := receiveLoop (info.size - offset) incoming.chunks
        let content := existing ++ read.1
        let written := inbox.insert (partName final) content
        let accepted := [FileReply.accept id offset]
        if read.2 = false then
          ⟨accepted, .error (incoming.stall.message (offset + read.1.length) info.size), written⟩
        else
          match announcedHash id incoming.frame with
          | .error message => ⟨accepted, .error message, written⟩
          | .ok sha256 =>
              if eqIgnoreAsciiCase (tools.sha256 content) sha256 = false then
                ⟨accepted, .error "チェックサムが一致しません(転送が壊れています)", written⟩
              else
                let described := written.insert (metaName final) (tools.printMeta info)
                let renamed := (described.erase (partName final)).insert final content
                ⟨accepted ++ [.done id], .ok (), renamed.erase (resumeName final)⟩

/-- `str::contains`. -/
def mentions (text part : String) : Bool :=
  text.toList.tails.any (fun rest => part.toList.isPrefixOf rest)

/-- What is kept of a transfer that has failed. -/
def keepOrDrop (marker : ResumeMarker) (resume : Bool) (final message : String) (inbox : Inbox) :
    Inbox :=
  if resume = true ∧ mentions message "チェックサム" = false ∧
      (inbox.get? (partName final)).any (fun part => part ≠ []) = true then
    inbox.insert (resumeName final) (tools.printMarker marker)
  else (inbox.erase (partName final)).erase (resumeName final)

/-- A peer with what it is called, and the time. -/
structure TransferPeer where
  ip : Ipv4Addr
  name : String
  nowMs : Nat

def FileOffer.marker (offer : FileOffer) (peer : TransferPeer) (name : String) : ResumeMarker where
  sender := peer.ip.display
  name := name
  size := offer.size

/-- Where the content of an offer goes: its name, where it goes on, and the inbox then. -/
def placeFile (peer : TransferPeer) (listing : List String) (offer : FileOffer) (name : String)
    (inbox : Inbox) : String × Nat × Inbox :=
  let resumable := if offer.resume then findResumable tools (offer.marker peer name) listing inbox
    else (none, inbox)
  match resumable with
  | (some (final, offset), inbox) => (final, offset, inbox)
  | (none, inbox) => (uniquePath inbox name, 0, inbox)

/-- `receive_file`: how it has ended, and the name of the file, once it has one. What arrives may
depend on where the content goes on. -/
def receiveFile (peer : TransferPeer) (listing : List String) (offer : FileOffer)
    (incoming : Nat → Incoming) (inbox : Inbox) : Reception × Option String :=
  match FileNames.sanitizeFileName offer.name with
  | none =>
      (⟨[.reject offer.id "このファイル名は受け取れません"],
        .error s!"不正なファイル名の申し出を拒否しました({peer.ip.display})", inbox⟩, none)
  | some name =>
      let place := placeFile tools peer listing offer name inbox
      let info : FileMeta := { fromIp := peer.ip, fromName := peer.name, size := offer.size
                               receivedUnixMs := peer.nowMs }
      let received := receiveBody tools info offer.id place.1 place.2.1 (incoming place.2.1)
        place.2.2
      match received.result with
      | .ok () => (received, some place.1)
      | .error message =>
          (⟨received.replies, received.result,
            keepOrDrop tools (offer.marker peer name) offer.resume place.1 message received.inbox⟩,
            some place.1)

/-! ### The sender -/

/-- The chunks of some sizes, as far as the bytes go. -/
def cutInto : List Nat → List UInt8 → List (List UInt8)
  | [], _ => []
  | size :: rest, bytes => bytes.take size :: cutInto rest (bytes.drop size)

/-- How far the connection of a sender carries: the sizes of the reads before it breaks, and whether
the digest arrives when the content has. -/
structure Carried where
  sizes : List Nat
  digest : Bool

/-- `send_body` from where the receiver goes on: the rest of the file, and the digest of all of it.
-/
def sendBody (content : List UInt8) (id : String) (carried : Carried) (offset : Nat) :
    Incoming where
  chunks := cutInto carried.sizes (content.drop offset)
  stall := .closed
  frame := if carried.digest then .frame (some (id, tools.sha256 content)) "FileHash"
    else .missing "相手が切断しました"

end

end PeerCove.FileTransfer
