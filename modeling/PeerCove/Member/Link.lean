/-
Module: PeerCove.Member.Link
Layer: Member
Purpose: Requests over the control connection of a member and the answers to them: the waiting
  places of the member link, the wire, and the host's reader, which answers in order.
Trusted boundary: the operations and results that memo and admin messages carry are parameters;
  the host may leave any request without an answer
Main exports: LinkRequest, LinkReply, MemberLinkState, LinkCall, hostAnswers, LinkSystem, linkStep,
  Uncontended
-/
import PeerCove.Member.Rotation
import PeerCove.Library.Table
import PeerCove.Library.Correlation
import PeerCove.Library.Runs

namespace PeerCove

/-! ### Messages -/

/-- What the messages of other layers carry. -/
structure LinkPayloads where
  DnsOp : Type
  AdminOp : Type
  AdminData : Type
  MemoOp : Type
  MemoReply : Type

/-- `InviteReply`. -/
structure InviteReply where
  accepted : Bool
  message : String
  token : Option String
  name : Option String
  expiresAt : Option Nat
deriving Repr, DecidableEq

/-- `AdminOpReply`. -/
structure AdminOpReply (β : Type) where
  accepted : Bool
  message : String
  data : Option β

/-- The messages of a member that the host answers. -/
inductive LinkRequest (P : LinkPayloads) where
  | setDnsName (name : String)
  | setDisplayName (name : String)
  | createInvite (name : Option String) (expiresInSecs : Option Nat)
  | adminDnsOp (seq : Nat) (op : P.DnsOp)
  | adminOp (seq : Nat) (op : P.AdminOp)
  | memoReq (seq : Nat) (op : P.MemoOp)

/-- The answers. -/
inductive LinkReply (P : LinkPayloads) where
  | setDnsNameResult (accepted : Bool) (message : String)
  | setDisplayNameResult (accepted : Bool) (message : String)
  | createInviteResult (reply : InviteReply)
  | adminDnsResult (seq : Nat) (accepted : Bool) (message : String)
  | adminOpResult (seq : Nat) (reply : AdminOpReply P.AdminData)
  | memoResp (seq : Nat) (reply : P.MemoReply)

/-- `host_reader` answers a request with the result of its kind, and copies its number. -/
def hostAnswers {P : LinkPayloads} : LinkRequest P → LinkReply P → Bool
  | .setDnsName _, .setDnsNameResult _ _ => true
  | .setDisplayName _, .setDisplayNameResult _ _ => true
  | .createInvite _ _, .createInviteResult _ => true
  | .adminDnsOp seq _, .adminDnsResult seq' _ _ => seq' = seq
  | .adminOp seq _, .adminOpResult seq' _ => seq' = seq
  | .memoReq seq _, .memoResp seq' _ => seq' = seq
  | _, _ => false

/-! ### The member's side -/

/-- The request a `oneshot::Sender` was made for. -/
abbrev Waiter := Nat

/-- `MemberLinkState`: single waiting places for three kinds of requests, numbered ones for the
others. -/
structure MemberLinkState extends MemberLink where
  dnsReply : Option Waiter := none
  displayReply : Option Waiter := none
  inviteReply : Option Waiter := none
  dnsAdminPending : Table Nat Waiter := Table.empty
  dnsAdminSeq : Nat := 0
  adminPending : Table Nat Waiter := Table.empty
  adminSeq : Nat := 0
  memoPending : Table Nat Waiter := Table.empty
  memoSeq : Nat := 0

namespace MemberLinkState

variable {P : LinkPayloads}

/-- The message is queued first, and the place for the answer is taken only if that succeeds. -/
def request (message : LinkRequest P) (wait : MemberLinkState → MemberLinkState)
    (link : MemberLinkState) : Option (LinkRequest P) × MemberLinkState :=
  if link.outbox = .opened then (some message, wait link) else (none, link)

def requestDnsName (name : String) (who : Waiter) (link : MemberLinkState) :
    Option (LinkRequest P) × MemberLinkState :=
  link.request (.setDnsName name) (fun link => { link with dnsReply := some who })

def requestDisplayName (name : String) (who : Waiter) (link : MemberLinkState) :
    Option (LinkRequest P) × MemberLinkState :=
  link.request (.setDisplayName name) (fun link => { link with displayReply := some who })

def requestCreateInvite (name : Option String) (expiresInSecs : Option Nat) (who : Waiter)
    (link : MemberLinkState) : Option (LinkRequest P) × MemberLinkState :=
  link.request (.createInvite name expiresInSecs)
    (fun link => { link with inviteReply := some who })

/-- The number is used up whether or not the request can be sent. -/
def requestDnsAdmin (op : P.DnsOp) (who : Waiter) (link : MemberLinkState) :
    Option (LinkRequest P) × MemberLinkState :=
  let seq := link.dnsAdminSeq + 1
  request (.adminDnsOp seq op)
    (fun link => { link with dnsAdminPending := link.dnsAdminPending.insert seq who })
    { link with dnsAdminSeq := seq }

def requestAdminOp (op : P.AdminOp) (who : Waiter) (link : MemberLinkState) :
    Option (LinkRequest P) × MemberLinkState :=
  let seq := link.adminSeq + 1
  request (.adminOp seq op)
    (fun link => { link with adminPending := link.adminPending.insert seq who })
    { link with adminSeq := seq }

def requestMemo (op : P.MemoOp) (who : Waiter) (link : MemberLinkState) :
    Option (LinkRequest P) × MemberLinkState :=
  let seq := link.memoSeq + 1
  request (.memoReq seq op)
    (fun link => { link with memoPending := link.memoPending.insert seq who })
    { link with memoSeq := seq }

/-- The waiter an answer is sent to leaves its place. -/
def putDnsResult (link : MemberLinkState) : Option Waiter × MemberLinkState :=
  (link.dnsReply, { link with dnsReply := none })

def putDisplayResult (link : MemberLinkState) : Option Waiter × MemberLinkState :=
  (link.displayReply, { link with displayReply := none })

def putInviteResult (link : MemberLinkState) : Option Waiter × MemberLinkState :=
  (link.inviteReply, { link with inviteReply := none })

def putDnsAdminResult (seq : Nat) (link : MemberLinkState) : Option Waiter × MemberLinkState :=
  (link.dnsAdminPending.get? seq,
    { link with dnsAdminPending := link.dnsAdminPending.erase seq })

def putAdminOpResult (seq : Nat) (link : MemberLinkState) : Option Waiter × MemberLinkState :=
  (link.adminPending.get? seq, { link with adminPending := link.adminPending.erase seq })

def putMemoResult (seq : Nat) (link : MemberLinkState) : Option Waiter × MemberLinkState :=
  (link.memoPending.get? seq, { link with memoPending := link.memoPending.erase seq })

/-- `member_reader` on the answers. -/
def memberReader : LinkReply P → MemberLinkState → Option Waiter × MemberLinkState
  | .setDnsNameResult _ _, link => link.putDnsResult
  | .setDisplayNameResult _ _, link => link.putDisplayResult
  | .createInviteResult _, link => link.putInviteResult
  | .adminDnsResult seq _ _, link => link.putDnsAdminResult seq
  | .adminOpResult seq _, link => link.putAdminOpResult seq
  | .memoResp seq _, link => link.putMemoResult seq

/-- All waiting places are emptied; the numbers go on. -/
def clearWaiting (link : MemberLinkState) : MemberLinkState where
  toMemberLink := link.toMemberLink
  dnsAdminSeq := link.dnsAdminSeq
  adminSeq := link.adminSeq
  memoSeq := link.memoSeq

def attach (link : MemberLinkState) : MemberLinkState :=
  { link.clearWaiting with toMemberLink := link.toMemberLink.attach }

def detach (link : MemberLinkState) : MemberLinkState :=
  { link.clearWaiting with toMemberLink := link.toMemberLink.detach }

/-- `member_writer` has ended, and nothing can be queued any more. -/
def writerEnds (link : MemberLinkState) : MemberLinkState :=
  { link with toMemberLink := link.toMemberLink.abort }

end MemberLinkState

/-- The calls of the link's users. -/
inductive LinkCall (P : LinkPayloads) where
  | dnsName (name : String)
  | displayName (name : String)
  | createInvite (name : Option String) (expiresInSecs : Option Nat)
  | dnsAdmin (op : P.DnsOp)
  | adminOp (op : P.AdminOp)
  | memo (op : P.MemoOp)

def LinkCall.request {P : LinkPayloads} :
    LinkCall P → Waiter → MemberLinkState → Option (LinkRequest P) × MemberLinkState
  | .dnsName name => MemberLinkState.requestDnsName name
  | .displayName name => MemberLinkState.requestDisplayName name
  | .createInvite name expiresInSecs => MemberLinkState.requestCreateInvite name expiresInSecs
  | .dnsAdmin op => MemberLinkState.requestDnsAdmin op
  | .adminOp op => MemberLinkState.requestAdminOp op
  | .memo op => MemberLinkState.requestMemo op

/-! ### The member, the host and the wire between them -/

/-- An answer received by a waiter, and the request the host gave it to. -/
structure Delivery (P : LinkPayloads) where
  receiver : Waiter
  asker : Waiter
  reply : LinkReply P

/-- One link over its connections.  The two queues are those of the current connection; messages on
them are marked with the request they belong to. -/
structure LinkSystem (P : LinkPayloads) where
  link : MemberLinkState := {}
  /-- Requests made so far. -/
  asked : Nat := 0
  /-- Requests that `host_reader` has not dealt with. -/
  atHost : List (Waiter × LinkRequest P) := []
  /-- Answers that `member_reader` has not read. -/
  replies : List (Waiter × LinkReply P) := []
  /-- Requesters that no longer wait. -/
  gone : List Waiter := []
  delivered : List (Delivery P) := []

inductive LinkEvent (P : LinkPayloads) where
  | ask (call : LinkCall P)
  | answer (reply : LinkReply P)
  /-- The host leaves a request without an answer. -/
  | ignore
  | receive
  | timeout (who : Waiter)
  | attach
  | detach
  | writerEnds

section

variable {P : LinkPayloads}

/-- What becomes of an answer: nothing if its place is empty or the receiver has given up. -/
def LinkSystem.hand (system : LinkSystem P) (asker : Waiter) (reply : LinkReply P)
    (waiter : Option Waiter) : List (Delivery P) :=
  match waiter with
  | some who => if who ∈ system.gone then [] else [⟨who, asker, reply⟩]
  | none => []

def linkStep : LinkEvent P → LinkSystem P → Option (LinkSystem P)
  | .ask call, system =>
      let (message, link) := call.request system.asked system.link
      some
        { system with
          link := link
          asked := system.asked + 1
          atHost := system.atHost ++ (message.map (fun message => (system.asked, message))).toList }
  | .answer reply, system =>
      match system.atHost with
      | (asker, request) :: rest =>
          if hostAnswers request reply then
            some { system with atHost := rest, replies := system.replies ++ [(asker, reply)] }
          else none
      | [] => none
  | .ignore, system =>
      match system.atHost with
      | _ :: rest => some { system with atHost := rest }
      | [] => none
  | .receive, system =>
      match system.replies with
      | (asker, reply) :: rest =>
          let (waiter, link) := system.link.memberReader reply
          some
            { system with
              link := link
              replies := rest
              delivered := system.delivered ++ system.hand asker reply waiter }
      | [] => none
  | .timeout who, system =>
      if who < system.asked then some { system with gone := who :: system.gone } else none
  | .attach, system =>
      some { system with link := system.link.attach, atHost := [], replies := [] }
  | .detach, system =>
      some { system with link := system.link.detach, atHost := [], replies := [] }
  | .writerEnds, system => some { system with link := system.link.writerEnds }

/-! ### Waiting places -/

/-- The places an answer can be put into. -/
inductive WaitingPlace where
  | dnsName
  | displayName
  | invite
  | dnsAdmin (seq : Nat)
  | admin (seq : Nat)
  | memo (seq : Nat)
deriving Repr, DecidableEq

def LinkRequest.place : LinkRequest P → WaitingPlace
  | .setDnsName _ => .dnsName
  | .setDisplayName _ => .displayName
  | .createInvite _ _ => .invite
  | .adminDnsOp seq _ => .dnsAdmin seq
  | .adminOp seq _ => .admin seq
  | .memoReq seq _ => .memo seq

def LinkReply.place : LinkReply P → WaitingPlace
  | .setDnsNameResult _ _ => .dnsName
  | .setDisplayNameResult _ _ => .displayName
  | .createInviteResult _ => .invite
  | .adminDnsResult seq _ _ => .dnsAdmin seq
  | .adminOpResult seq _ => .admin seq
  | .memoResp seq _ => .memo seq

/-- The single place of a call's kind, for the kinds that have one. -/
def LinkCall.singlePlace : LinkCall P → Option WaitingPlace
  | .dnsName _ => some .dnsName
  | .displayName _ => some .displayName
  | .createInvite _ _ => some .invite
  | .dnsAdmin _ | .adminOp _ | .memo _ => none

namespace LinkSystem

/-- The requests of this connection that have not been answered to the end, oldest first, each with
the place its answer will be put into. -/
def unanswered (system : LinkSystem P) : List (Waiter × WaitingPlace) :=
  system.replies.map (fun entry => (entry.1, entry.2.place)) ++
    system.atHost.map (fun entry => (entry.1, entry.2.place))

end LinkSystem

/-- A request of a kind with a single waiting place is sent only when no earlier one of its kind
over this connection is unanswered. -/
def Uncontended : LinkEvent P → LinkSystem P → Prop
  | .ask call, system =>
      system.link.outbox = .opened →
        ∀ place ∈ call.singlePlace, ∀ entry ∈ system.unanswered, entry.2 ≠ place
  | _, _ => True

instance : ∀ (event : LinkEvent P) (system : LinkSystem P), Decidable (Uncontended event system)
  | .ask call, system =>
      inferInstanceAs (Decidable (system.link.outbox = .opened →
        ∀ place ∈ call.singlePlace, ∀ entry ∈ system.unanswered, entry.2 ≠ place))
  | .answer _, _ | .ignore, _ | .receive, _ | .timeout _, _ | .attach, _ | .detach, _
  | .writerEnds, _ => inferInstanceAs (Decidable True)

end

end PeerCove
