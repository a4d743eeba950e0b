/-
Module: PeerCove.Ops.Peers
Layer: Operations
Purpose: Operations on the peers of `host.toml`: selection and key rotation.
Trusted boundary: the file holds the text of its `Config`, so editing a table edits the record
Main exports: findPeer, rotatePeerKey
-/
import PeerCove.Core.Validate

namespace PeerCove

open Fallible

/-- How an operator names a peer. -/
inductive Selector where
  | name (name : String)
  | publicKey (key : PublicKey)
  | ip (ip : Ipv4Addr)
deriving DecidableEq

def Selector.matches (selector : Selector) (peer : PeerConfig) : Bool :=
  match selector with
  | .name wanted => peer.name = some wanted
  | .publicKey wanted => peer.publicKey = wanted
  | .ip wanted => peer.virtualIp = some wanted

/-- How an unknown peer is answered: the peers there are. -/
def knownPeers (config : Config) : String :=
  let known := config.peers.map (fun peer =>
    let name := peer.name.getD "名前なし"
    let ip := (peer.virtualIp.map Ipv4Addr.display).getD ""
    s!"{name}({ip})")
  if known = [] then "(なし)" else ", ".intercalate known

/-- The one peer a selector matches. -/
def findPeer (config : Config) (selector : Selector) : Except String PeerConfig :=
  match config.peers.filter selector.matches with
  | [peer] => .ok peer
  | [] => .error s!"対象のピアが見つかりません。登録済み: {knownPeers config}"
  | _ => .error "複数のピアに一致しました。公開鍵で一意に指定してください"

inductive RotateOutcome where
  | applied (display : String)
  | unchanged
deriving Repr, DecidableEq

/-- A table entry that holds the old key gets the new one. -/
def replaceKey (old new key : PublicKey) : PublicKey :=
  if key = old then new else key

def MemberRef.replaceKey (old new : PublicKey) : MemberRef → MemberRef
  | .host => .host
  | .key current => .key (PeerCove.replaceKey old new current)

/-- The edits of `rotate_peer_key` on `[[peer]]`. -/
def PeerConfig.replaceKey (old new : PublicKey) (peer : PeerConfig) : PeerConfig :=
  { peer with publicKey := PeerCove.replaceKey old new peer.publicKey }

/-- The edits of `rotate_peer_key` on `[[dns_record]]`: `member` and `under`. -/
def DnsRecordConfig.replaceKey (old new : PublicKey) (record : DnsRecordConfig) :
    DnsRecordConfig :=
  { record with
    member := record.member.map (MemberRef.replaceKey old new)
    under := record.under.map (MemberRef.replaceKey old new) }

/-- All edits of `rotate_peer_key`.  The section `[acl]` is left as it is. -/
def Config.replaceKey (old new : PublicKey) (config : Config) : Config :=
  { config with
    peers := config.peers.map (PeerConfig.replaceKey old new)
    dnsRecords := config.dnsRecords.map (DnsRecordConfig.replaceKey old new) }

/-- `write_validated`: only a valid configuration is written. -/
def writeValidated (edited : Config) : Except String Config := do
  edited.validate
  return edited

/-- Give a member a new device key.  The result carries the configuration left in the file. -/
def rotatePeerKey (config : Config) (memberIp : Ipv4Addr) (newKey hostPublicKey : PublicKey) :
    Except String (RotateOutcome × Config) := do
  config.validate
  let target ← findPeer config (.ip memberIp)
  if target.publicKey = newKey then
    return (.unchanged, config)
  else
    refuseIf (newKey = hostPublicKey) "新しい公開鍵がホストの公開鍵と同じです"
    refuseIf (config.peers.any (fun peer => peer.publicKey = newKey))
      "新しい公開鍵は別のメンバーが使用中です"
    let display := target.name.getD memberIp.display
    refuseIf (config.peers.all (fun peer => peer.publicKey ≠ target.publicKey))
      "host.toml から対象ピアを特定できませんでした"
    let written ← writeValidated (config.replaceKey target.publicKey newKey)
    return (.applied display, written)

/-! ### Inversion lemmas -/

/-- A peer is found when it is the only match. -/
theorem findPeer_ok {config : Config} {selector : Selector} {peer : PeerConfig} :
    findPeer config selector = .ok peer ↔ config.peers.filter selector.matches = [peer] := by
  unfold findPeer
  split
  · rename_i only found
    simp [found]
  · rename_i found
    simp [found]
  · rename_i notOne notNone
    constructor
    · intro impossible
      cases impossible
    · intro found
      exact absurd found (notOne peer)

theorem writeValidated_ok {edited written : Config} :
    writeValidated edited = .ok written ↔ edited.validate = .ok () ∧ edited = written := by
  unfold writeValidated
  rw [bind_ok]
  constructor
  · intro h
    obtain ⟨⟨⟩, valid, same⟩ := h
    exact ⟨valid, pure_ok.mp same⟩
  · intro h
    exact ⟨(), h.1, pure_ok.mpr h.2⟩

/-- A rotation to a key nobody carries succeeds exactly when one peer has the address and the
edited configuration is valid; the edited configuration is then in the file. -/
theorem rotatePeerKey_ok {config : Config} {memberIp : Ipv4Addr} {newKey host : PublicKey}
    {outcome : RotateOutcome} {written : Config} (valid : config.validate = .ok ())
    (notHost : newKey ≠ host) (unused : ∀ peer ∈ config.peers, peer.publicKey ≠ newKey) :
    rotatePeerKey config memberIp newKey host = .ok (outcome, written) ↔
      ∃ target, findPeer config (.ip memberIp) = .ok target ∧
        (config.replaceKey target.publicKey newKey).validate = .ok () ∧
        outcome = .applied (target.name.getD memberIp.display) ∧
        written = config.replaceKey target.publicKey newKey := by
  unfold rotatePeerKey
  rw [valid]
  cases found : findPeer config (.ip memberIp) with
  | error message => simp [bind, Except.bind]
  | ok target =>
      have listed : target ∈ config.peers := by
        have only := findPeer_ok.mp found
        exact (List.mem_filter.mp (only ▸ List.mem_singleton.mpr rfl)).1
      have changed : target.publicKey ≠ newKey := unused target listed
      have free : ¬ config.peers.any (fun peer => peer.publicKey = newKey) := by
        simpa using unused
      have present : ¬ config.peers.all (fun peer => peer.publicKey ≠ target.publicKey) := by
        intro absent
        simpa using List.all_eq_true.mp absent target listed
      simp only [bind, Except.bind, changed, if_false, refuseIf, notHost, free, present]
      cases written? : writeValidated (config.replaceKey target.publicKey newKey) with
      | error message =>
          have invalid : (config.replaceKey target.publicKey newKey).validate ≠ .ok () := by
            intro fine
            rw [writeValidated_ok.mpr ⟨fine, rfl⟩] at written?
            cases written?
          simp [invalid]
      | ok result =>
          obtain ⟨fine, rfl⟩ := writeValidated_ok.mp written?
          simp [fine, pure, Except.pure, eq_comm]

end PeerCove
