/-
Module: PeerCove.Chat.SendQueue
Layer: Chat
Purpose: The queue of chat messages that wait to be delivered, its file, and the tasks that work on
  it: sending, resending and cancelling, the clean-up for members that are gone, and the pumps.
Trusted boundary: reading and writing the file succeeds; a write replaces the whole file
Main exports: PendingChat, queueTargets, SendDaemon, SendEvent, SendDaemon.step
-/
import PeerCove.Chat.ChatReception
import PeerCove.Chat.Groups
import PeerCove.Core.AclSessions
import PeerCove.Core.Ledger

namespace PeerCove

def CHAT_RESEND_INTERVAL : Nat := 10 * SECOND

/-- A message that waits to be delivered. -/
structure PendingChat where
  seq : Nat
  id : String
  scope : ChatScope
  toIp : Option Ipv4Addr
  /-- Who had the address when a direct message was queued. -/
  toMemberId : Option String
  groupId : Option String
  text : String
  sentAt : Nat
  /-- Who has acknowledged it. -/
  delivered : List Ipv4Addr := []
  nextAt : Nat
deriving DecidableEq

/-- An entry of the file. -/
structure PersistedChat where
  seq : Nat
  id : String
  scope : ChatScope
  toIp : Option Ipv4Addr
  toMemberId : Option String
  groupId : Option String
  text : String
  sentAt : Nat
  delivered : List Ipv4Addr
deriving DecidableEq

namespace PendingChat

def persisted (pending : PendingChat) : PersistedChat where
  seq := pending.seq
  id := pending.id
  scope := pending.scope
  toIp := pending.toIp
  toMemberId := pending.toMemberId
  groupId := pending.groupId
  text := pending.text
  sentAt := pending.sentAt
  delivered := pending.delivered

/-- A direct message is done when the recipient has it, another one when anybody has it. -/
def done (pending : PendingChat) : Bool :=
  match pending.scope with
  | .direct => pending.toIp.any (fun target => target ∈ pending.delivered)
  | _ => !pending.delivered.isEmpty

/-- A direct message to one of the addresses. -/
def isDirectTo (pending : PendingChat) (addresses : List Ipv4Addr) : Bool :=
  pending.scope = .direct && pending.toIp.any (fun ip => ip ∈ addresses)

def acknowledged (pending : PendingChat) (target : Ipv4Addr) : PendingChat :=
  { pending with delivered :=
      if target ∈ pending.delivered then pending.delivered else pending.delivered ++ [target] }

end PendingChat

/-- What the daemon knows of the network at a moment: the ledger, once it has one, and the
groups. -/
structure ChatView where
  ledger : Option (List LedgerEntry)
  groups : String → Option GroupInfo

/-- Whom the ledger names at an address. -/
def ChatView.memberIdAt (view : ChatView) (ip : Ipv4Addr) : Option String :=
  ((view.ledger.getD []).find? (fun entry => entry.ip = ip)).bind LedgerEntry.memberId

/-- The recipient, unless the address belongs to another member by now, or to none. -/
def directDeliveryTarget (toIp : Option Ipv4Addr) (expected : Option String)
    (ledger : Option (List LedgerEntry)) : Option Ipv4Addr :=
  match toIp with
  | none => none
  | some ip =>
      match expected, ledger with
      | some expected, some ledger =>
          match ledger.find? (fun entry => entry.ip = ip) with
          | none => none
          | some entry =>
              if entry.memberId = some expected then some ip
              else if entry.memberId.isSome then none
              else some ip
      | _, _ => some ip

def queueTargets (address : Ipv4Addr) (pending : PendingChat) (view : ChatView) :
    List Ipv4Addr :=
  match pending.scope with
  | .direct => (directDeliveryTarget pending.toIp pending.toMemberId view.ledger).toList
  | .network =>
      ((view.ledger.getD []).filter (fun entry => entry.ip ≠ address && entry.online)).map
        LedgerEntry.ip
  | .group =>
      match pending.groupId.bind view.groups with
      | none => []
      | some group =>
          if group.members.contains address then
            ((view.ledger.getD []).filter (fun entry =>
              entry.ip ≠ address && entry.online && group.members.contains entry.ip)).map
                LedgerEntry.ip
          else []

/-! ### The operations -/

/-- What the user sends. -/
structure ChatDraft where
  scope : ChatScope
  peer : Option Ipv4Addr
  groupId : Option String
  text : String

def ChatDraft.check (draft : ChatDraft) (address : Ipv4Addr) (view : ChatView) :
    Except String Unit :=
  if draft.text.toList.all Text.isWhitespace then .error "本文が空です"
  else if Text.len draft.text > MAX_CHAT_TEXT_BYTES then
    .error s!"本文が長すぎます(上限 {MAX_CHAT_TEXT_BYTES / 1024} KB)"
  else
    match draft.scope with
    | .direct =>
        match draft.peer with
        | none => .error "宛先(peer)が指定されていません"
        | some peer => if peer = address then .error "自分自身へは送れません" else .ok ()
    | .network => .ok ()
    | .group =>
        match draft.groupId with
        | none => .error "宛先グループ(group_id)が指定されていません"
        | some groupId =>
            match view.groups groupId with
            | none => .error "このグループはありません(退出したか、まだ情報が届いていません)"
            | some group =>
                if group.members.contains address then .ok ()
                else .error "このグループのメンバーではありません"

/-- The entry of the history for what is sent. -/
def ChatDraft.entry (draft : ChatDraft) (address : Ipv4Addr) (id : String) (sentAt : Nat) :
    ChatMessageInfo where
  seq := 0
  id := id
  scope := draft.scope
  groupId := if draft.scope = .group then draft.groupId else none
  fromIp := address
  toIp := if draft.scope = .direct then draft.peer else none
  text := draft.text
  sentAt := sentAt

/-- The entry of the queue for a message of the history. -/
def ChatMessageInfo.pending (entry : ChatMessageInfo) (view : ChatView) (now : Nat) :
    PendingChat where
  seq := entry.seq
  id := entry.id
  scope := entry.scope
  toIp := entry.toIp
  toMemberId := entry.toIp.bind view.memberIdAt
  groupId := entry.groupId
  text := entry.text
  sentAt := entry.sentAt
  nextAt := now

/-- Whether `chat_resend` takes a message of the history. -/
def ChatMessageInfo.resendable (entry : ChatMessageInfo) (address : Ipv4Addr) : Bool :=
  entry.fromIp = address && !entry.system && entry.file.isNone

/-! ### The daemon -/

/-- `chat_send`, `chat_resend` or `chat_cancel_send`, which has the lock of the networks until it
returns; `accepting` is the message of a `chat_send`. -/
inductive SendOperation where
  | pushing (pending : PendingChat) (accepting : Option Nat)
  /-- `save_queue` is about to read the queue. -/
  | saving (accepting : Option Nat)
  /-- `known` is what `chat_send` had saved when the queue was read (history). -/
  | writing (accepting : Option Nat) (snapshot : List PersistedChat) (known : List Nat)
deriving DecidableEq

/-- A pump with the entries that were due and are still to be looked at, or a clean-up that saves
the queue. -/
inductive SendTask where
  | looking (due : List Nat)
  /-- The entry is out of the queue. -/
  | holding (pending : PendingChat) (targets : List Ipv4Addr) (due : List Nat)
  | transmitting (pending : PendingChat) (target : Ipv4Addr) (targets : List Ipv4Addr)
      (due : List Nat)
  | saving (due : List Nat)
  | writing (due : List Nat) (snapshot : List PersistedChat) (known : List Nat)
deriving DecidableEq

/-- The entry that a pump has taken out of the queue. -/
def SendTask.held : SendTask → Option PendingChat
  | .holding pending _ _ | .transmitting pending _ _ _ => some pending
  | _ => none

structure SendDaemon where
  log : ChatLog := {}
  queue : List PendingChat := []
  file : List PersistedChat := []
  operation : Option SendOperation := none
  tasks : List SendTask := []
  /-- The messages that `chat_send` has put in the history (history). -/
  issued : List ChatMessageInfo := []
  /-- The messages that `chat_send` has saved (history). -/
  accepted : List Nat := []
  /-- The messages that were delivered, cancelled, or discarded with a member (history). -/
  finished : List Nat := []
  /-- The messages that were cancelled or discarded and not sent again (history). -/
  withdrawn : List Nat := []
  /-- The messages of which a transmission has started after that (history). -/
  late : List Nat := []

/-- What a task meets in its next step. -/
structure TurnInput where
  view : ChatView
  now : Nat
  /-- Whether the recipient acknowledges. -/
  acknowledges : Bool

inductive SendEvent where
  | send (draft : ChatDraft) (id : String) (sentAt now : Nat) (view : ChatView)
  | resend (seq now : Nat) (view : ChatView)
  | cancel (seq : Nat)
  /-- The clean-up after `reconcileIdentities` has found members gone. -/
  | discard (stale : List Ipv4Addr)
  /-- `pump_chat_queue` starts. -/
  | pump (now : Nat)
  /-- The operation that has the lock takes its next step. -/
  | proceed
  | turn (task : SendTask) (input : TurnInput)

namespace SendDaemon

def snapshot (daemon : SendDaemon) : List PersistedChat :=
  daemon.queue.map PendingChat.persisted

/-- The entries that pumps have taken out of the queue. -/
def held (daemon : SendDaemon) : List PendingChat :=
  daemon.tasks.filterMap SendTask.held

/-- The entry that the operation is about to put into the queue. -/
def pushed (daemon : SendDaemon) : List PendingChat :=
  match daemon.operation with
  | some (.pushing pending _) => [pending]
  | _ => []

/-- The next step of the operation. -/
def proceed (operation : SendOperation) (daemon : SendDaemon) : SendDaemon :=
  match operation with
  | .pushing pending accepting =>
      { daemon with
        queue := daemon.queue ++ [pending]
        operation := some (.saving accepting)
        withdrawn := daemon.withdrawn.filter (fun seq => seq ≠ pending.seq) }
  | .saving accepting =>
      { daemon with operation := some (.writing accepting daemon.snapshot daemon.accepted) }
  | .writing accepting snapshot _ =>
      { daemon with
        file := snapshot
        operation := none
        accepted := daemon.accepted ++ accepting.toList }

/-- The next step of a task, which is no longer among the tasks. -/
def advance (address : Ipv4Addr) (input : TurnInput) (task : SendTask) (daemon : SendDaemon) :
    SendDaemon :=
  match task with
  | .looking [] => daemon
  | .looking (seq :: due) =>
      match daemon.queue.find? (fun pending => pending.seq = seq) with
      | none => { daemon with tasks := daemon.tasks ++ [.looking due] }
      | some pending =>
          { daemon with
            queue := daemon.queue.eraseP (fun pending => pending.seq = seq)
            tasks := daemon.tasks ++
              [.holding pending (queueTargets address pending input.view) due] }
  | .holding pending (target :: targets) due =>
      if target ∈ pending.delivered then
        { daemon with tasks := daemon.tasks ++ [.holding pending targets due] }
      else
        { daemon with
          tasks := daemon.tasks ++ [.transmitting pending target targets due]
          late := if pending.seq ∈ daemon.withdrawn then daemon.late ++ [pending.seq]
            else daemon.late }
  | .transmitting pending target targets due =>
      let answered := if input.acknowledges then pending.acknowledged target else pending
      { daemon with tasks := daemon.tasks ++ [.holding answered targets due] }
  | .holding pending [] due =>
      if pending.done then
        { daemon with
          log := daemon.log.clearFailed pending.seq
          tasks := daemon.tasks ++ [.saving due]
          finished := daemon.finished ++ [pending.seq] }
      else
        { daemon with
          log := daemon.log.markFailed pending.seq
          queue := daemon.queue ++ [{ pending with nextAt := input.now + CHAT_RESEND_INTERVAL }]
          tasks := daemon.tasks ++ [.saving due] }
  | .saving due =>
      { daemon with tasks := daemon.tasks ++ [.writing due daemon.snapshot daemon.accepted] }
  | .writing due snapshot _ =>
      { daemon with file := snapshot, tasks := daemon.tasks ++ [.looking due] }

/-- `chat_send` up to its entry in the history. -/
def send (address : Ipv4Addr) (draft : ChatDraft) (id : String) (sentAt now : Nat)
    (view : ChatView) (daemon : SendDaemon) : SendDaemon :=
  match draft.check address view with
  | .error _ => daemon
  | .ok () =>
      let (log, entry) := daemon.log.append (draft.entry address id sentAt)
      { daemon with
        log := log
        operation := some (.pushing (entry.pending view now) (some entry.seq))
        issued := daemon.issued ++ [entry]
        finished := daemon.finished.filter (fun seq => seq ≠ entry.seq) }

/-- `chat_resend` up to its look at the queue; the history is read where that finds nothing. -/
def resend (address : Ipv4Addr) (seq now : Nat) (view : ChatView) (daemon : SendDaemon) :
    SendDaemon :=
  if daemon.queue.any (fun pending => pending.seq = seq) then
    { daemon with
      queue := updateFirst (fun pending => pending.seq = seq)
        (fun pending => { pending with nextAt := now }) daemon.queue
      operation := some (.saving none) }
  else
    match daemon.log.get seq with
    | none => daemon
    | some entry =>
        if entry.resendable address then
          { daemon with operation := some (.pushing (entry.pending view now) none) }
        else daemon

def cancel (seq : Nat) (daemon : SendDaemon) : SendDaemon :=
  { daemon with
    queue := daemon.queue.filter (fun pending => pending.seq ≠ seq)
    log := daemon.log.markFailed seq
    operation := some (.saving none)
    finished := daemon.finished ++ [seq]
    withdrawn := daemon.withdrawn ++ [seq] }

/-- The clean-up takes direct messages out of the queue; it is meant for those that pumps have
taken out, too. -/
def discard (stale : List Ipv4Addr) (daemon : SendDaemon) : SendDaemon :=
  let gone := daemon.queue.filter (fun pending => pending.isDirectTo stale)
  let meant := gone ++ daemon.held.filter (fun pending => pending.isDirectTo stale)
  { daemon with
    queue := daemon.queue.filter (fun pending => !pending.isDirectTo stale)
    tasks := if gone.isEmpty then daemon.tasks else daemon.tasks ++ [.saving []]
    finished := daemon.finished ++ gone.map PendingChat.seq
    withdrawn := daemon.withdrawn ++ meant.map PendingChat.seq }

def step (address : Ipv4Addr) (event : SendEvent) (daemon : SendDaemon) : Option SendDaemon :=
  match event with
  | .send draft id sentAt now view =>
      if daemon.operation.isSome then none else some (daemon.send address draft id sentAt now view)
  | .resend seq now view =>
      if daemon.operation.isSome then none else some (daemon.resend address seq now view)
  | .cancel seq => if daemon.operation.isSome then none else some (daemon.cancel seq)
  | .discard stale => some (daemon.discard stale)
  | .pump now =>
      let due := (daemon.queue.filter (fun pending => pending.nextAt ≤ now)).map PendingChat.seq
      some { daemon with tasks := daemon.tasks ++ [.looking due] }
  | .proceed => daemon.operation.map (fun operation => daemon.proceed operation)
  | .turn task input =>
      if task ∈ daemon.tasks then
        some ({ daemon with tasks := daemon.tasks.erase task }.advance address input task)
      else none

end SendDaemon

end PeerCove
