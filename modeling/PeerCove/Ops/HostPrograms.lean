/-
Module: PeerCove.Ops.HostPrograms
Layer: Operations
Purpose: The operations on the peers and on the policy of `host.toml` as programs that load the
  file, look for their target, and edit the file as it is when they get the lock.
Trusted boundary: the file holds the text of its `Config`, so editing a table edits the record
Main exports: HostProgram.removePeer, HostProgram.editTarget, HostProgram.setPeerAdmin,
  HostProgram.approveInvite, HostProgram.writePolicy
-/
import PeerCove.Ops.Settings

namespace PeerCove

open Fallible FilePrograms

namespace HostProgram

/-! ### Peers -/

def removePeer (selector : Selector) : HostProgram RemovedPeer := do
  let plan ← removalPlan (← Program.read) selector
  Program.write plan.edit
  return plan.removed

def renamePeer (selector : Selector) (newName : String) : HostProgram Unit := do
  let key ← renamePlan (← Program.read) selector newName
  Program.write (editPeer key (fun peer => { peer with name := some newName }))

def setPeerDnsName (selector : Selector) (input : String) : HostProgram DnsNameOutcome := do
  match ← dnsNamePlan (← Program.read) selector input with
  | .unchanged label => return .unchanged label
  | .apply key display label =>
      Program.write (editPeer key (fun peer => { peer with dnsName := some label }))
      return .applied display label

/-- The tables of the key are edited; `missing` is the answer when there is none. -/
def editLocated (missing : String) (key : PublicKey) (change : PeerConfig → PeerConfig)
    (doc : Config) : Except String Config := do
  refuseIf (doc.peers = []) "[[peer]] が見つかりません"
  refuseIf (doc.peers.all (fun peer => peer.publicKey ≠ key)) missing
  editPeer key change doc

/-- Load, find the target, edit its table; the result is the name to show. -/
def editTarget (missing : String) (selector : Selector) (change : PeerConfig → PeerConfig) :
    HostProgram String := do
  let config ← loadConfig
  let target ← findPeer config selector
  Program.write (editLocated missing target.publicKey change)
  return target.name.getD target.publicKey.toBase64

/-- The answer that suspects an edit by hand. -/
def PEER_NOT_LOCATED_BY_HAND : String :=
  "host.toml から対象ピアを特定できませんでした(手編集で public_key が変わっている可能性)"

def setSubnets (selector : Selector) (subnets : List Ipv4Net) : HostProgram String :=
  editTarget PEER_NOT_LOCATED selector (fun peer => { peer with subnets := subnets })

def setPeerCanInvite (selector : Selector) (allowed : Bool) : HostProgram String :=
  editTarget PEER_NOT_LOCATED_BY_HAND selector (fun peer => { peer with canInvite := allowed })

def setPeerAdmin (selector : Selector) (allowed : Bool) : HostProgram String :=
  editTarget PEER_NOT_LOCATED_BY_HAND selector (fun peer => { peer with admin := allowed })

/-- `iter_mut().find(…)`: the first table of the key is changed. -/
def changePeer (key : PublicKey) (change : PeerConfig → PeerConfig) :
    List PeerConfig → List PeerConfig
  | [] => []
  | peer :: rest =>
      if peer.publicKey = key then change peer :: rest else peer :: changePeer key change rest

def approvalEdit (key : PublicKey) (approvedAt : Nat) (doc : Config) : Except String Config := do
  refuseIf (doc.peers = []) "[[peer]] が見つかりません"
  refuseIf (doc.peers.all (fun peer => peer.publicKey ≠ key)) PEER_NOT_LOCATED
  let approve := fun (peer : PeerConfig) => { peer with inviteApprovedAt := some approvedAt }
  writeValidated { doc with peers := changePeer key approve doc.peers }

def approveInvite (selector : Selector) (approvedAt : Nat) : HostProgram Unit := do
  let config ← loadConfig
  let target ← findPeer config selector
  refuseIf (target.inviteRequiresApproval = false) "このメンバーは参加承認の対象ではありません"
  refuseIf target.inviteAcceptedAt.isNone "端末からの参加要求をまだ受信していません"
  if target.inviteApprovedAt.isSome then
    return ()
  else
    Program.write (approvalEdit target.publicKey approvedAt)

/-! ### The policy -/

def readPolicy : HostProgram PolicySettings := do
  PeerCove.readPolicy (← Program.read)

def writePolicy (policy : PolicySettings) : HostProgram Unit :=
  Program.write (fun doc => PeerCove.writePolicy doc policy)

def permGroupCreate (name : String) (members : List PublicKey) (random : String) :
    HostProgram String := do
  let created ← permGroupCreatePolicy (← Program.read) name members random
  writePolicy created.2
  return created.1

def permGroupRename (id name : String) : HostProgram Unit := do
  let policy ← permGroupRenamePolicy (← Program.read) id name
  writePolicy policy

def permGroupSetMembers (id : String) (members : List PublicKey) : HostProgram Unit := do
  let policy ← permGroupSetMembersPolicy (← Program.read) id members
  writePolicy policy

def permGroupDelete (id : String) : HostProgram Unit := do
  let policy ← permGroupDeletePolicy (← Program.read) id
  writePolicy policy

end HostProgram

end PeerCove
