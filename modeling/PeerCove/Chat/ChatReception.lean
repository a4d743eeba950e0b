/-
Module: PeerCove.Chat.ChatReception
Layer: Chat
Purpose: Chat messages coming in on any number of connections at once; the check for a duplicate and
  the entry in the history are two accesses.
Trusted boundary: none
Main exports: ChatFrame, ChatReceiver, ReceptionEvent, ChatReceiver.step
-/
import PeerCove.Chat.ChatLog
import PeerCove.Core.Text

namespace PeerCove

def MAX_CHAT_TEXT_BYTES : Nat := 8 * 1024

/-- A `Chat` frame. -/
structure ChatFrame where
  id : String
  scope : ChatScope
  groupId : Option String
  text : String
  sentAt : Nat
deriving DecidableEq

/-- A frame that is being handled, and the address it came from. -/
structure Reception where
  peerIp : Ipv4Addr
  frame : ChatFrame
deriving DecidableEq

/-- Whether the connection goes on with the frame. -/
def ChatFrame.acceptable (frame : ChatFrame) : Bool :=
  !(Text.len frame.text > MAX_CHAT_TEXT_BYTES) &&
    !(frame.scope = .group && frame.groupId.isNone)

/-- The entry of the history for a frame. -/
def Reception.entry (ownIp : Ipv4Addr) (reception : Reception) : ChatMessageInfo where
  seq := 0
  id := reception.frame.id
  scope := reception.frame.scope
  groupId := reception.frame.groupId
  fromIp := reception.peerIp
  toIp := if reception.frame.scope = .direct then some ownIp else none
  text := reception.frame.text
  sentAt := reception.frame.sentAt

/-- The history, and the connections by how far they are. -/
structure ChatReceiver where
  log : ChatLog := {}
  /-- The frame has been read. -/
  checking : List Reception := []
  /-- The id was not in the history. -/
  appending : List Reception := []
  /-- The message is in the history, or was taken for a duplicate. -/
  acking : List Reception := []
  /-- Acknowledgements that were sent (history). -/
  acks : List Reception := []
  /-- Whether the history has dropped a message (history). -/
  overflowed : Bool := false

inductive ReceptionEvent where
  | receive (reception : Reception)
  | check (reception : Reception)
  | append (reception : Reception)
  | ack (reception : Reception)
  /-- The connection is lost before the acknowledgement is sent. -/
  | lose (reception : Reception)

namespace ChatReceiver

def step (ownIp : Ipv4Addr) (event : ReceptionEvent) (receiver : ChatReceiver) :
    Option ChatReceiver :=
  match event with
  | .receive reception =>
      if reception.frame.acceptable then
        some { receiver with checking := receiver.checking ++ [reception] }
      else some receiver
  | .check reception =>
      if reception ∈ receiver.checking then
        let receiver := { receiver with checking := receiver.checking.erase reception }
        if receiver.log.containsId reception.frame.id then
          some { receiver with acking := receiver.acking ++ [reception] }
        else some { receiver with appending := receiver.appending ++ [reception] }
      else none
  | .append reception =>
      if reception ∈ receiver.appending then
        some { receiver with
          log := (receiver.log.append (reception.entry ownIp)).1
          appending := receiver.appending.erase reception
          acking := receiver.acking ++ [reception]
          overflowed := receiver.overflowed || receiver.log.entries.length ≥ MAX_HISTORY }
      else none
  | .ack reception =>
      if reception ∈ receiver.acking then
        some { receiver with
          acking := receiver.acking.erase reception
          acks := receiver.acks ++ [reception] }
      else none
  | .lose reception =>
      if reception ∈ receiver.acking then
        some { receiver with acking := receiver.acking.erase reception }
      else none

end ChatReceiver

end PeerCove
