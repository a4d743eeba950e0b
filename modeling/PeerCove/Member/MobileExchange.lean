/-
Module: PeerCove.Member.MobileExchange
Layer: Member
Purpose: The exchanges of a mobile device on short-lived messaging connections: what it does with an
  incoming one, the reception of a file, the delivery of a chat message, and the round of the
  thread that pumps the send queue.
Trusted boundary: `serde_json` and SHA-256 are parameters; writes to a socket and to files succeed;
  the list of transfers, the system messages of a group update and the saved queue are left out
Main exports: MsgFrame, Exchange, Exchange.run, handleConn, receiveFile, deliverChat,
  pumpChatQueue
-/
import PeerCove.Chat.ChatReception
import PeerCove.Chat.FileNames
import PeerCove.Chat.SendQueue
import PeerCove.Member.MobileLines

namespace PeerCove

def MSG_VERSION : Nat := 1

/-- The conversation that a file belongs to. -/
structure ChatContext where
  scope : ChatScope
  groupId : Option String
deriving DecidableEq

inductive MsgFrame where
  | hello (version : Nat)
  | fileOffer (id name : String) (size : Nat) (chat : Option ChatContext) (resume : Bool)
  | fileAccept (id : String) (offset : Nat)
  | fileReject (id reason : String)
  | fileHash (id sha256 : String)
  | fileDone (id : String)
  | chat (frame : ChatFrame)
  | chatAck (id : String)
  | groupUpdate (group : GroupInfo)
  | groupAck (id : String)
deriving DecidableEq

inductive ExchangeError where
  | connect
  | read (error : LineError)
  | unparsable
  | body (error : BodyError)
  | notInLedger
  | blocked
  | notHello (frame : MsgFrame)
  | unsupported (frame : MsgFrame)
  | tooLarge (size : Nat)
  | badFileName
  | notFileHash (frame : MsgFrame)
  | otherTransfer (id : String)
  | wrongHash
  | textTooLong
  | noGroupId
  | badGroup
  | groupNotAllowed
  | notChatAck (frame : MsgFrame)
deriving DecidableEq

/-! ### Exchanges -/

/-- What an exchange does next, up to its result. -/
inductive Exchange (ρ : Type) where
  | finish (result : ρ)
  /-- `send_json` -/
  | send (frame : MsgFrame) (next : Exchange ρ)
  /-- `read_msg_frame` -/
  | frame (next : Except ExchangeError MsgFrame → Exchange ρ)
  /-- The body of a file of this size. -/
  | body (size : Nat) (next : Except BodyError (List UInt8) → Exchange ρ)
  | connect (target : Ipv4Addr) (next : Except ExchangeError Unit → Exchange ρ)

/-- The connection that was opened last, and what each attempt to connect is going to meet. -/
structure Connections where
  open_ : Option LineReader := none
  dial : Nat → Option LineReader := fun _ => none

namespace Connections

def connect (connections : Connections) : Except ExchangeError Unit × Connections :=
  match connections.dial 0 with
  | none => (.error .connect, { connections with dial := fun i => connections.dial (i + 1) })
  | some reader => (.ok (), { open_ := some reader, dial := fun i => connections.dial (i + 1) })

/-- `set_limit` and the loop over the body; without a connection there is nothing to read. -/
def body (connections : Connections) (size : Nat) :
    Except BodyError (List UInt8) × Connections :=
  match connections.open_ with
  | none => (.error (.disconnected size), connections)
  | some reader =>
      let (reader, result) := readBody { reader with limit := size } size []
      (result, { connections with open_ := some reader })

end Connections

section
variable (parse : LineBytes → Option MsgFrame)

/-- `read_msg_frame`, as long as the fuel lasts. -/
def readMsgFrame (fuel : Nat) (reader : LineReader) :
    Option (LineReader × Except ExchangeError MsgFrame) :=
  match readLineBlocking fuel reader [] true with
  | none => none
  | some (reader, .error error) => some (reader, .error (.read error))
  | some (reader, .ok line) =>
      match parse line with
      | none => some (reader, .error .unparsable)
      | some received => some (reader, .ok received)

/-- The frames that an exchange sends and its result, as long as the fuel lasts for each frame that
it reads. -/
def Exchange.run {ρ : Type} (fuel : Nat) : Exchange ρ → Connections → Option (List MsgFrame × ρ)
  | .finish result, _ => some ([], result)
  | .send message next, connections =>
      (run fuel next connections).map (fun (sent, result) => (message :: sent, result))
  | .frame next, connections =>
      match connections.open_ with
      | none => run fuel (next (.error (.read .disconnected))) connections
      | some reader =>
          match readMsgFrame parse fuel reader with
          | none => none
          | some (rest, result) => run fuel (next result) { connections with open_ := some rest }
  | .body size next, connections =>
      run fuel (next (connections.body size).1) (connections.body size).2
  | .connect _ next, connections => run fuel (next connections.connect.1) connections.connect.2

end

/-- A frame, or the end of the exchange with the error. -/
def Exchange.expectFrame {α : Type} (next : MsgFrame → Exchange (Except ExchangeError α)) :
    Exchange (Except ExchangeError α) :=
  .frame (fun
    | .ok received => next received
    | .error error => .finish (.error error))

/-! ### Incoming connections -/

/-- What the session has when a connection comes in. -/
structure SessionView where
  ownIp : Ipv4Addr
  ledger : Option (List LedgerEntry)
  chat : ChatLog := {}
  groups : GroupStore := {}
  recvLimitBytes : Nat
  now : Nat
  /-- A name that is free in the inbox. -/
  uniqueName : String → String
  /-- SHA-256 in hexadecimal. -/
  digest : List UInt8 → String

/-- What the session takes in. -/
inductive Taken where
  | file (name : String) (body : List UInt8) (entry : Option ChatMessageInfo)
  | chat (entry : ChatMessageInfo)
  | duplicate (id : String)
  | group (group : GroupInfo) (applied : Bool)
deriving DecidableEq

namespace SessionView

def ledgerMember (view : SessionView) (ip : Ipv4Addr) : Option LedgerEntry :=
  (view.ledger.getD []).find? (fun entry => entry.ip = ip)

/-- The message for a file of a conversation. -/
def fileEntry (view : SessionView) (peerIp : Ipv4Addr) (context : ChatContext) (id saved : String)
    (size : Nat) : ChatMessageInfo where
  seq := 0
  id := id
  scope := context.scope
  groupId := context.groupId
  fromIp := peerIp
  toIp := if context.scope = .direct then some view.ownIp else none
  text := ""
  sentAt := view.now
  file := some { name := saved, size := size, transfers := [id] }

def receiveFile (view : SessionView) (peerIp : Ipv4Addr) (context : Option ChatContext)
    (id name : String) (size : Nat) : Exchange (Except ExchangeError Taken) :=
  match FileNames.sanitizeFileName name with
  | none => .send (.fileReject id "ファイル名が不正です") (.finish (.error .badFileName))
  | some clean =>
      let saved := view.uniqueName clean
      .send (.fileAccept id 0)
        (.body size (fun
          | .error error => .finish (.error (.body error))
          | .ok body =>
              Exchange.expectFrame (fun
                | .fileHash hashId sha256 =>
                    if hashId ≠ id then .finish (.error (.otherTransfer hashId))
                    else if (view.digest body).toList.map Text.toAsciiLower
                        ≠ sha256.toList.map Text.toAsciiLower then
                      .finish (.error .wrongHash)
                    else
                      .send (.fileDone id)
                        (.finish (.ok (.file saved body
                          (context.map (fun context =>
                            view.fileEntry peerIp context id saved size)))))
                | other => .finish (.error (.notFileHash other)))))

def receiveChat (view : SessionView) (peerIp : Ipv4Addr) (frame : ChatFrame) :
    Exchange (Except ExchangeError Taken) :=
  if Text.len frame.text > MAX_CHAT_TEXT_BYTES then .finish (.error .textTooLong)
  else if frame.scope = .group ∧ frame.groupId = none then .finish (.error .noGroupId)
  else if view.chat.containsId frame.id then
    .send (.chatAck frame.id) (.finish (.ok (.duplicate frame.id)))
  else
    .send (.chatAck frame.id)
      (.finish (.ok (.chat (Reception.entry view.ownIp { peerIp := peerIp, frame := frame }))))

def receiveGroup (view : SessionView) (peerIp : Ipv4Addr) (group : GroupInfo) :
    Exchange (Except ExchangeError Taken) :=
  if group.id = "" ∨ group.name = "" ∨ Text.len group.name > MAX_GROUP_NAME_BYTES ∨
      group.members.length > MAX_GROUP_MEMBERS then
    .finish (.error .badGroup)
  else if !view.groups.acceptsUpdate group peerIp then .finish (.error .groupNotAllowed)
  else .send (.groupAck group.id) (.finish (.ok (.group group (view.groups.apply group).2)))

/-- `handle_conn`, for a connection from an IPv4 address. -/
def handleConn (view : SessionView) (peerIp : Ipv4Addr) : Exchange (Except ExchangeError Taken) :=
  match view.ledgerMember peerIp with
  | none => .finish (.error .notInLedger)
  | some sender =>
      if sender.blocked then .finish (.error .blocked)
      else
        Exchange.expectFrame (fun
          -- another version is only noted in the log
          | .hello _ =>
              Exchange.expectFrame (fun
                | .fileOffer id name size chat _ =>
                    if view.recvLimitBytes > 0 ∧ size > view.recvLimitBytes then
                      .send
                        (.fileReject id
                          s!"サイズが受信側の上限({view.recvLimitBytes / (1024 * 1024)} MB)を超えています")
                        (.finish (.error (.tooLarge size)))
                    else view.receiveFile peerIp chat id name size
                | .chat frame => view.receiveChat peerIp frame
                | .groupUpdate group => view.receiveGroup peerIp group
                | other => .finish (.error (.unsupported other)))
          | other => .finish (.error (.notHello other)))

end SessionView

/-! ### Sending -/

/-- `deliver_chat`, and what follows its result. -/
def deliverChat {ρ : Type} (target : Ipv4Addr) (frame : ChatFrame) (id : String)
    (next : Except ExchangeError Unit → Exchange ρ) : Exchange ρ :=
  .connect target (fun
    | .error error => next (.error error)
    | .ok () =>
        .send (.hello MSG_VERSION)
          (.send (.chat frame)
            (.frame (fun
              | .ok (.chatAck acked) =>
                  if acked = id then next (.ok ()) else next (.error (.notChatAck (.chatAck acked)))
              | .ok other => next (.error (.notChatAck other))
              | .error error => next (.error error)))))

/-- What the session has when it attempts an entry of the queue. -/
structure AttemptView where
  ownIp : Ipv4Addr
  ledger : Option (List LedgerEntry)
  groups : String → Option GroupInfo
  /-- When the attempt is over. -/
  now : Nat
  /-- What others have done to the queue since the last attempt. -/
  meanwhile : List PendingChat → List PendingChat

namespace AttemptView

def chatTargets (view : AttemptView) (scope : ChatScope) (toIp : Option Ipv4Addr)
    (groupId : Option String) : Except String (List Ipv4Addr) :=
  match scope with
  | .direct =>
      match toIp with
      | none => .error "宛先がありません"
      | some target => .ok [target]
  | .network =>
      match view.ledger with
      | none => .error "台帳が未受信です(接続直後?)"
      | some ledger =>
          let targets := (ledger.filter (fun entry =>
            entry.online && !entry.blocked && entry.ip ≠ view.ownIp)).map LedgerEntry.ip
          if targets = [] then .error "オンラインのメンバーがいません" else .ok targets
  | .group =>
      match groupId with
      | none => .error "グループ ID がありません"
      | some id =>
          match view.groups id with
          | none => .error "グループが見つかりません"
          | some group =>
              match view.ledger with
              | none => .error "台帳が未受信です(接続直後?)"
              | some ledger =>
                  let targets := (group.members.filter (fun ip => ip ≠ view.ownIp)).filter
                    (fun ip => ledger.any (fun entry =>
                      entry.ip = ip && entry.online && !entry.blocked))
                  if targets = [] then .error "オンラインのグループメンバーがいません"
                  else .ok targets

/-- Whether a direct message would go to somebody else by now, or to nobody. -/
def recipientGone (view : AttemptView) (pending : PendingChat) : Bool :=
  match pending.scope, pending.toIp, pending.toMemberId, view.ledger with
  | .direct, some target, some expected, some ledger =>
      match ledger.find? (fun entry => entry.ip = target) with
      | none => true
      | some entry => entry.memberId ≠ some expected && entry.memberId.isSome
  | _, _, _, _ => false

end AttemptView

def PendingChat.frame (pending : PendingChat) : ChatFrame where
  id := pending.id
  scope := pending.scope
  groupId := pending.groupId
  text := pending.text
  sentAt := pending.sentAt

/-- The deliveries of an attempt, one target after the other. -/
def deliverEach {ρ : Type} (frame : ChatFrame) (next : PendingChat → Exchange ρ) :
    List Ipv4Addr → PendingChat → Exchange ρ
  | [], pending => next pending
  | target :: targets, pending =>
      if target ∈ pending.delivered then deliverEach frame next targets pending
      else
        deliverChat target frame pending.id (fun
          | .ok () => deliverEach frame next targets (pending.acknowledged target)
          | .error _ => deliverEach frame next targets pending)

/-- `attempt_chat`, and what follows its answer whether the message is delivered. -/
def attemptChat {ρ : Type} (view : AttemptView) (pending : PendingChat)
    (next : PendingChat → Bool → Exchange ρ) : Exchange ρ :=
  if view.recipientGone pending then next pending false
  else
    deliverEach pending.frame (fun pending => next pending pending.done)
      ((view.chatTargets pending.scope pending.toIp pending.groupId).toOption.getD []) pending

/-- The queue and the history. -/
structure SendState where
  queue : List PendingChat
  chat : ChatLog

/-- The round of `pump_chat_queue` over the entries that were due, with what the session has at each
attempt. -/
def pumpChatQueue : List (Nat × AttemptView) → SendState → Exchange SendState
  | [], state => .finish state
  | (seq, view) :: due, state =>
      let queue := view.meanwhile state.queue
      match queue.find? (fun pending => pending.seq = seq) with
      | none => pumpChatQueue due { state with queue := queue }
      | some pending =>
          let queue := queue.eraseP (fun pending => pending.seq = seq)
          attemptChat view pending (fun pending delivered =>
            if delivered then
              pumpChatQueue due { queue := queue, chat := state.chat.clearFailed pending.seq }
            else
              pumpChatQueue due
                { queue := queue ++ [{ pending with nextAt := view.now + CHAT_RESEND_INTERVAL }]
                  chat := state.chat.markFailed pending.seq })

end PeerCove
