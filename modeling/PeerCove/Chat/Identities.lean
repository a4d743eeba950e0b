/-
Module: PeerCove.Chat.Identities
Layer: Chat
Purpose: How the daemon finds out from the ledgers it gets that an address belongs to another member
  by now, or to none: the identities it remembers, the notices it writes, and what it deletes of the
  history and of the send queue.
Trusted boundary: the keys of the side file are addresses; its entries are gone through in the order
  in which they were written; files are written
Main exports: IdentityRecord, reconcileEntry, reconcileIdentities, Conversations,
  ConversationEvent, Conversations.step
-/
import PeerCove.Chat.SendQueue
import PeerCove.Library.Table

namespace PeerCove

/-- An entry of `chatids.json`. -/
structure IdentityRecord where
  id : String
  name : Option String
deriving DecidableEq

/-- Whose address it is, where direct messages are exchanged with it: not the device itself and not
the host. -/
def LedgerEntry.partnerId (selfIp : Ipv4Addr) (entry : LedgerEntry) : Option String :=
  if entry.ip = selfIp || entry.isHost then none else entry.memberId

/-- What is remembered of a member. -/
def identityOf (memberId : String) : String :=
  s!"id:{memberId}"

/-- The ids of new messages, by their number, and the time. -/
structure NoticeStamp where
  id : Nat → String
  sentAt : Nat

/-- `append_system` -/
def ChatLog.appendSystem (log : ChatLog) (stamp : NoticeStamp) (selfIp : Ipv4Addr)
    (scope : ChatScope) (toIp : Option Ipv4Addr) (event : SystemEvent) (text : String) : ChatLog :=
  (log.append
    { seq := 0
      id := stamp.id log.nextSeq
      scope := scope
      fromIp := selfIp
      toIp := toIp
      text := text
      sentAt := stamp.sentAt
      system := true
      systemEvent := some event }).1

/-- What the loop over the ledger has made so far. -/
structure Reconciling where
  ids : Table Ipv4Addr IdentityRecord
  log : ChatLog
  replaced : List Ipv4Addr := []

/-- The loop's body: one entry of the ledger. -/
def reconcileEntry (stamp : NoticeStamp) (selfIp : Ipv4Addr) (knownBefore : Bool)
    (state : Reconciling) (entry : LedgerEntry) : Reconciling :=
  match entry.partnerId selfIp with
  | none => state
  | some memberId =>
      let record : IdentityRecord := { id := identityOf memberId, name := entry.name }
      let name := entry.name.getD entry.ip.display
      match state.ids.get? entry.ip with
      | some prev =>
          if prev.id = record.id then
            if prev.name ≠ entry.name then
              { state with ids := state.ids.insert entry.ip record }
            else state
          else
            { ids := state.ids.insert entry.ip record
              log := (state.log.clearDirect entry.ip).appendSystem stamp selfIp .direct
                (some entry.ip) (.memberReplaced name)
                s!"{name} は新しい端末として参加しました(以前の履歴と送信待ちを破棄しました)"
              replaced := state.replaced ++ [entry.ip] }
      | none =>
          let log :=
            match entry.invitedBy with
            | some inviter =>
                if knownBefore then
                  state.log.appendSystem stamp selfIp .network none (.memberInvited inviter name)
                    s!"{inviter} がメンバー招待を発行しました({name})"
                else state.log
            | none => state.log
          { state with ids := state.ids.insert entry.ip record, log := log }

/-- The notice that an address is no longer in the ledger. -/
def departureNotice (stamp : NoticeStamp) (selfIp : Ipv4Addr) (log : ChatLog)
    (gone : Ipv4Addr × IdentityRecord) : ChatLog :=
  log.appendSystem stamp selfIp .network none
    (.memberRemovedFromNetwork gone.1.display gone.2.name)
    (match gone.2.name with
      | some name => s!"{name}({gone.1.display})がネットワークから削除されました"
      | none => s!"{gone.1.display} がネットワークから削除されました")

structure ReconcileOutcome where
  replaced : List Ipv4Addr
  departed : List Ipv4Addr
deriving DecidableEq

def ReconcileOutcome.all (outcome : ReconcileOutcome) : List Ipv4Addr :=
  outcome.replaced ++ outcome.departed

/-- The side file, the history and the send queue of one network. -/
structure Conversations where
  ids : Table Ipv4Addr IdentityRecord := Table.empty
  log : ChatLog := {}
  queue : List PendingChat := []
  /-- The ledger of the last call (history). -/
  ledger : List LedgerEntry := []
  /-- Whom a message was exchanged with, by its number (history). -/
  partner : Nat → Option String := fun _ => none

namespace Conversations

/-- The loop over the entries of the ledger. -/
def reconciled (stamp : NoticeStamp) (selfIp : Ipv4Addr) (ledger : List LedgerEntry)
    (state : Conversations) : Reconciling :=
  ledger.foldl (reconcileEntry stamp selfIp (state.ids.size ≠ 0))
    { ids := state.ids, log := state.log }

/-- Remembered addresses that are not in the ledger. -/
def departed (ledger : List LedgerEntry) (ids : Table Ipv4Addr IdentityRecord) :
    List (Ipv4Addr × IdentityRecord) :=
  ids.rows.filter (fun row => !ledger.any (fun entry => entry.ip = row.1))

def reconcileIdentities (stamp : NoticeStamp) (selfIp : Ipv4Addr) (ledger : List LedgerEntry)
    (state : Conversations) : Conversations × ReconcileOutcome :=
  let loop := state.reconciled stamp selfIp ledger
  let departed := departed ledger loop.ids
  let outcome : ReconcileOutcome :=
    { replaced := loop.replaced, departed := departed.map Prod.fst }
  ({ state with
      ids := loop.ids.filter (fun ip _ => ledger.any (fun entry => entry.ip = ip))
      log := departed.foldl (departureNotice stamp selfIp) loop.log
      queue := state.queue.filter (fun pending => !pending.isDirectTo outcome.all)
      ledger := ledger },
    outcome)

/-- Whose address it is by the last ledger. -/
def holder (selfIp : Ipv4Addr) (ledger : List LedgerEntry) (ip : Ipv4Addr) : Option String :=
  (ledger.find? (fun entry => entry.ip = ip)).bind (LedgerEntry.partnerId selfIp)

end Conversations

/-- A ledger: no two entries have one address. -/
structure MemberLedger where
  entries : List LedgerEntry
  distinct : (entries.map LedgerEntry.ip).Nodup

inductive ConversationEvent where
  /-- `reconcile_identities` with the next ledger. -/
  | reconcile (ledger : MemberLedger) (stamp : NoticeStamp)
  /-- A direct message to a member of the current ledger. -/
  | send (peer : Ipv4Addr) (text id : String) (sentAt now : Nat)
  /-- A direct message from a member of the current ledger. -/
  | receive (peer : Ipv4Addr) (frame : ChatFrame)
  /-- A message of the queue has been acknowledged. -/
  | delivered (seq : Nat)
  /-- A message of the network or of a group. -/
  | post (entry : ChatMessageInfo)

namespace Conversations

def step (selfIp : Ipv4Addr) (event : ConversationEvent) (state : Conversations) :
    Option Conversations :=
  match event with
  | .reconcile ledger stamp => some (state.reconcileIdentities stamp selfIp ledger.entries).1
  | .send peer text id sentAt now =>
      (holder selfIp state.ledger peer).map (fun memberId =>
        let draft : ChatDraft :=
          { scope := .direct, peer := some peer, groupId := none, text := text }
        let (log, entry) := state.log.append (draft.entry selfIp id sentAt)
        { state with
          log := log
          queue := state.queue ++
            [entry.pending { ledger := some state.ledger, groups := fun _ => none } now]
          partner := Function.update state.partner entry.seq (some memberId) })
  | .receive peer frame =>
      if frame.scope = .direct then
        (holder selfIp state.ledger peer).map (fun memberId =>
          let (log, entry) :=
            state.log.append (Reception.entry selfIp { peerIp := peer, frame := frame })
          { state with
            log := log
            partner := Function.update state.partner entry.seq (some memberId) })
      else none
  | .delivered seq =>
      some { state with queue := state.queue.filter (fun pending => pending.seq ≠ seq) }
  | .post entry =>
      if entry.scope = .direct then none
      else some { state with log := (state.log.append entry).1 }

end Conversations

end PeerCove
