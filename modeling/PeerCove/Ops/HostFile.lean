/-
Module: PeerCove.Ops.HostFile
Layer: Operations
Purpose: The operations on `host.toml` as processes on one locked file: what each takes from the
  configuration it reads before the lock, and what it writes under the lock.
Trusted boundary: reads and writes of the file succeed
Main exports: HostOp, HostPlan, HostResult, hostProtocol
-/
import PeerCove.Ops.PeerEdits
import PeerCove.Library.LockedFile

namespace PeerCove

open Fallible

/-! ### Key rotation in two parts -/

/-- What `rotate_peer_key` finds out before the lock. -/
inductive RotationPlan where
  | unchanged
  | apply (old : PublicKey) (display : String)
deriving DecidableEq

def rotationPlan (config : Config) (memberIp : Ipv4Addr) (newKey hostPublicKey : PublicKey) :
    Except String RotationPlan := do
  config.validate
  let target ← findPeer config (.ip memberIp)
  if target.publicKey = newKey then
    return .unchanged
  else
    refuseIf (newKey = hostPublicKey) "新しい公開鍵がホストの公開鍵と同じです"
    refuseIf (config.peers.any (fun peer => peer.publicKey = newKey))
      "新しい公開鍵は別のメンバーが使用中です"
    return .apply target.publicKey (target.name.getD memberIp.display)

def rotationEdit (old new : PublicKey) (doc : Config) : Except String Config := do
  refuseIf (doc.peers = []) "[[peer]] が見つかりません"
  refuseIf (doc.peers.all (fun peer => peer.publicKey ≠ old)) PEER_NOT_LOCATED
  writeValidated (doc.replaceKey old new)

/-- The two parts of a rotation make up the whole. -/
theorem rotatePeerKey_parts (config : Config) (memberIp : Ipv4Addr)
    (newKey hostPublicKey : PublicKey) :
    rotatePeerKey config memberIp newKey hostPublicKey = (do
      match ← rotationPlan config memberIp newKey hostPublicKey with
      | .unchanged => return (.unchanged, config)
      | .apply old display =>
          let written ← rotationEdit old newKey config
          return (.applied display, written)) := by
  unfold rotatePeerKey rotationPlan
  cases valid : config.validate with
  | error message => rfl
  | ok checked =>
      cases found : findPeer config (.ip memberIp) with
      | error message => rfl
      | ok target =>
          have listed : target ∈ config.peers := by
            have only := findPeer_ok.mp found
            exact (List.mem_filter.mp (only ▸ List.mem_singleton.mpr rfl)).1
          have some : ¬ config.peers = [] := List.ne_nil_of_mem listed
          have located : ¬ config.peers.all (fun peer => peer.publicKey ≠ target.publicKey) := by
            intro absent
            simpa using List.all_eq_true.mp absent target listed
          simp only [bind, Except.bind]
          by_cases same : target.publicKey = newKey
          · rw [if_pos same, if_pos same]
            rfl
          · rw [if_neg same, if_neg same]
            unfold rotationEdit refuseIf
            by_cases isHost : newKey = hostPublicKey
            · rw [if_pos isHost]
            · rw [if_neg isHost]
              by_cases used : config.peers.any (fun peer => peer.publicKey = newKey) = true
              · rw [if_pos used]
              · rw [if_neg used]
                simp only [pure, Except.pure, bind, Except.bind, if_neg some, if_neg located]

/-! ### The operations -/

inductive HostOp where
  | appendPeer (peer : NewPeer)
  | removePeer (selector : Selector)
  | renamePeer (selector : Selector) (newName : String)
  | rotatePeerKey (memberIp : Ipv4Addr) (newKey hostPublicKey : PublicKey)
  | setPeerDnsName (selector : Selector) (input : String)
  | writePolicy (policy : PolicySettings)
  /-- `random` is the id of the last resort. -/
  | permGroupCreate (name : String) (members : List PublicKey) (random : String)
  | permGroupRename (id name : String)
  | permGroupSetMembers (id : String) (members : List PublicKey)
  | permGroupDelete (id : String)
  | importPermGroups (groups : List AclGroup)

/-- What an operation answers when it succeeds. -/
inductive HostResult where
  | done
  | removed (peer : RemovedPeer)
  | rotated (outcome : RotateOutcome)
  | dnsName (outcome : DnsNameOutcome)
  | created (id : String)
  | imported (written : Bool)
deriving DecidableEq

/-- What an operation takes along to the lock. -/
inductive HostPlan where
  | append (peer : NewPeer)
  | removal (plan : RemovalPlan)
  | rename (key : PublicKey) (newName : String)
  | rotation (old new : PublicKey) (display : String)
  | dnsName (key : PublicKey) (display label : String)
  | policy (policy : PolicySettings) (result : HostResult)
deriving DecidableEq

/-- An error before the lock is the answer. -/
def planned {α : Type} (found : Except String α)
    (next : α → Except String HostResult ⊕ HostPlan) : Except String HostResult ⊕ HostPlan :=
  match found with
  | .error message => .inl (.error message)
  | .ok value => next value

/-- The part of an operation before the lock. -/
def HostOp.prepare (op : HostOp) (config : Config) : Except String HostResult ⊕ HostPlan :=
  match op with
  | .appendPeer peer => .inr (.append peer)
  | .removePeer selector => planned (removalPlan config selector) (fun plan => .inr (.removal plan))
  | .renamePeer selector newName =>
      planned (renamePlan config selector newName) (fun key => .inr (.rename key newName))
  | .rotatePeerKey memberIp newKey hostPublicKey =>
      planned (rotationPlan config memberIp newKey hostPublicKey) (fun plan => match plan with
        | .unchanged => .inl (.ok (.rotated .unchanged))
        | .apply old display => .inr (.rotation old newKey display))
  | .setPeerDnsName selector input =>
      planned (dnsNamePlan config selector input) (fun plan => match plan with
        | .unchanged label => .inl (.ok (.dnsName (.unchanged label)))
        | .apply key display label => .inr (.dnsName key display label))
  | .writePolicy policy => .inr (.policy policy .done)
  | .permGroupCreate name members random =>
      planned (permGroupCreatePolicy config name members random) (fun created =>
        .inr (.policy created.2 (.created created.1)))
  | .permGroupRename id name =>
      planned (permGroupRenamePolicy config id name) (fun policy => .inr (.policy policy .done))
  | .permGroupSetMembers id members =>
      planned (permGroupSetMembersPolicy config id members) (fun policy =>
        .inr (.policy policy .done))
  | .permGroupDelete id =>
      planned (permGroupDeletePolicy config id) (fun policy => .inr (.policy policy .done))
  | .importPermGroups groups =>
      planned (importPermGroupsPolicy config groups) (fun policy => match policy with
        | none => .inl (.ok (.imported false))
        | some policy => .inr (.policy policy (.imported true)))

/-- What is written under the lock, if anything, and the answer. -/
def written (edited : Except String Config) (result : HostResult) :
    Except String HostResult × Option Config :=
  match edited with
  | .error message => (.error message, none)
  | .ok config => (.ok result, some config)

/-- The part of an operation under the lock.  `escaped` is what `append_peer` needs to know of
`{:?}`. -/
def HostPlan.edit (escaped : Char → Bool) (plan : HostPlan) (doc : Config) :
    Except String HostResult × Option Config :=
  match plan with
  | .append peer => written (appendPeer escaped peer doc) .done
  | .removal plan => written (plan.edit doc) (.removed plan.removed)
  | .rename key newName =>
      written (editPeer key (fun peer => { peer with name := some newName }) doc) .done
  | .rotation old new display =>
      written (rotationEdit old new doc) (.rotated (.applied display))
  | .dnsName key display label =>
      written (editPeer key (fun peer => { peer with dnsName := some label }) doc)
        (.dnsName (.applied display label))
  | .policy settings result => written (writePolicy doc settings) result

/-- The operations as processes on `host.toml`. -/
def hostProtocol (escaped : Char → Bool) :
    LockedFile.Protocol HostOp Config HostPlan (Except String HostResult) where
  prepare := HostOp.prepare
  edit := HostPlan.edit escaped

end PeerCove
