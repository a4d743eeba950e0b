/-
Module: PeerCove.Host.Identity
Layer: Host
Purpose: Who a virtual address stands for: the member that owns it, and its permission groups.
Trusted boundary: none
Main exports: groupIdsFor, actorForIp, memberActor, hostActor
-/
import PeerCove.Core.Config
import PeerCove.Memo.Permissions

namespace PeerCove

/-- The permission groups a member belongs to, by the key of the first peer with the address. -/
def groupIdsFor (config : Config) (ip : Ipv4Addr) : List String :=
  match config.peers.find? (fun peer => peer.virtualIp = some ip) with
  | none => []
  | some peer =>
      (config.acl.groups.filter (fun group => group.members.contains peer.publicKey)).map
        AclGroup.id

/-- The member that owns an address, without its groups. -/
def actorForIp (config : Config) (ip : Ipv4Addr) : Except String Actor :=
  match config.peers.find? (fun peer => peer.virtualIp = some ip) with
  | none => .error "送信元のメンバーが見つかりません"
  | some peer =>
      .ok ((Actor.member (peer.inviteId.getD s!"legacy-{ip.display}")
        (peer.name.getD s!"member-{ip.display}")).withAdmin peer.admin)

/-- The member that owns an address, with the groups it is in. -/
def memberActor (config : Config) (ip : Ipv4Addr) : Except String Actor :=
  (actorForIp config ip).map (fun actor => actor.withGroups (groupIdsFor config ip))

/-- The host itself, which is always an administrator. -/
def hostActor (config : Config) : Actor :=
  Actor.host (config.interface.displayName.getD "ホスト")

end PeerCove
