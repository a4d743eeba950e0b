/-
Module: PeerCove.Ops.InviteAcceptance
Layer: Operations
Purpose: `mark_invite_accepted_by_ip` and `approve_invite` beside the other operations on
  `host.toml`, each in its part before the lock and its part under the lock.
Trusted boundary: reads and writes of the file succeed
Main exports: MarkOutcome, markInvitePlan, acceptAnswer, RosterOp, RosterPlan, rosterProtocol
-/
import PeerCove.Ops.HostFile
import PeerCove.Ops.HostPrograms

namespace PeerCove

open Fallible

/-! ### The first Hello of an invited device -/

/-- `Ok(false)` in two cases, then `Ok(true)`. -/
inductive MarkOutcome where
  | legacy
  | again
  | first
deriving Repr, DecidableEq

/-- What `mark_invite_accepted_by_ip` finds out before the lock: an answer, or whose table to edit. -/
def markInvitePlan (config : Config) (memberIp : Ipv4Addr) (acceptedAt : Nat)
    (deviceId : Option String) : Except String (MarkOutcome ⊕ PublicKey × String) := do
  config.validate
  let target ← findPeer config (.ip memberIp)
  if target.inviteId.isNone then
    return .inl .legacy
  else
    match deviceId with
    | none => throw "招待 v3 の端末 ID がありません"
    | some device =>
        if target.inviteAcceptedAt.isSome then
          refuseIf (target.inviteDeviceId ≠ some device) "この招待は別の端末で既に使用されています"
          return .inl .again
        else
          refuseIf (target.inviteAllowsConnection acceptedAt = false) "招待の期限が切れています"
          return .inr (target.publicKey, device)

/-- The tables of the key get the time and the device. -/
def PeerConfig.accept (acceptedAt : Nat) (device : String) (peer : PeerConfig) : PeerConfig :=
  { peer with inviteAcceptedAt := some acceptedAt, inviteDeviceId := some device }

/-- What `accept_invite` answers after the invitation is marked. -/
def acceptAnswer (config : Config) (memberIp : Ipv4Addr) : Except String Bool := do
  config.validate
  match config.peers.find? (fun peer => peer.virtualIp = some memberIp) with
  | none => throw "参加端末が host.toml に見つかりません"
  | some peer => return peer.inviteIsIsolated

/-- What `approve_invite` finds out before the lock. -/
def approvalPlan (config : Config) (selector : Selector) : Except String (Option PublicKey) := do
  config.validate
  let target ← findPeer config selector
  refuseIf (target.inviteRequiresApproval = false) "このメンバーは参加承認の対象ではありません"
  refuseIf target.inviteAcceptedAt.isNone "端末からの参加要求をまだ受信していません"
  if target.inviteApprovedAt.isSome then return none else return some target.publicKey

/-! ### The operations on the roster -/

inductive RosterOp where
  | host (op : HostOp)
  | approveInvite (selector : Selector) (approvedAt : Nat)
  | markInvite (memberIp : Ipv4Addr) (acceptedAt : Nat) (deviceId : Option String)

inductive RosterResult where
  | host (result : HostResult)
  | approved
  | marked (outcome : MarkOutcome)
deriving DecidableEq

inductive RosterPlan where
  | host (plan : HostPlan)
  | approval (key : PublicKey) (approvedAt : Nat)
  | acceptance (key : PublicKey) (acceptedAt : Nat) (device : String)
deriving DecidableEq

/-- The part of an operation before the lock. -/
def RosterOp.prepare (op : RosterOp) (config : Config) : Except String RosterResult ⊕ RosterPlan :=
  match op with
  | .host op =>
      match op.prepare config with
      | .inl result => .inl (result.map .host)
      | .inr plan => .inr (.host plan)
  | .approveInvite selector approvedAt =>
      match approvalPlan config selector with
      | .error message => .inl (.error message)
      | .ok none => .inl (.ok .approved)
      | .ok (some key) => .inr (.approval key approvedAt)
  | .markInvite memberIp acceptedAt deviceId =>
      match markInvitePlan config memberIp acceptedAt deviceId with
      | .error message => .inl (.error message)
      | .ok (.inl outcome) => .inl (.ok (.marked outcome))
      | .ok (.inr (key, device)) => .inr (.acceptance key acceptedAt device)

/-- What an edited document comes to: the answer, and the file where it is written. -/
def concludedWith (edited : Except String Config) (result : RosterResult) :
    Except String RosterResult × Option Config :=
  match edited with
  | .error message => (.error message, none)
  | .ok config => (.ok result, some config)

/-- The part of an operation under the lock. -/
def RosterPlan.edit (escaped : Char → Bool) (plan : RosterPlan) (doc : Config) :
    Except String RosterResult × Option Config :=
  match plan with
  | .host plan =>
      let edited := plan.edit escaped doc
      (edited.1.map .host, edited.2)
  | .approval key approvedAt => concludedWith (HostProgram.approvalEdit key approvedAt doc) .approved
  | .acceptance key acceptedAt device =>
      concludedWith (editPeer key (PeerConfig.accept acceptedAt device) doc) (.marked .first)

/-- The operations as processes on `host.toml`. -/
def rosterProtocol (escaped : Char → Bool) :
    LockedFile.Protocol RosterOp Config RosterPlan (Except String RosterResult) where
  prepare := RosterOp.prepare
  edit := RosterPlan.edit escaped

/-- The key that an operation brings in. -/
def RosterOp.brings : RosterOp → Option PublicKey
  | .host (.appendPeer peer) => some peer.publicKey
  | .host (.rotatePeerKey _ newKey _) => some newKey
  | _ => none

/-- Whom an operation appends. -/
def RosterOp.appends : RosterOp → Option NewPeer
  | .host (.appendPeer peer) => some peer
  | _ => none

end PeerCove
