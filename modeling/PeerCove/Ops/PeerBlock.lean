/-
Module: PeerCove.Ops.PeerBlock
Layer: Operations
Purpose: The block that `append_peer` adds to the text of `host.toml`, with the texts in it as they
  are written and as they are read back.
Trusted boundary: numbers, keys and addresses are read as they were written; which characters `{:?}`
  writes by their number is a parameter
Main exports: readQuoted, NewPeer.readBack, appendPeerText
-/
import PeerCove.Library.BasicString
import PeerCove.Ops.PeerEdits

namespace PeerCove

open Fallible

/-- What `toml_string` makes of a text, as TOML reads it. -/
def readQuoted (escaped : Char → Bool) (text : String) : Option String :=
  match BasicString.read (BasicString.debugText escaped text.toList) with
  | some (value, []) => some (String.ofList value)
  | _ => none

/-- A field that is there only with a text. -/
def readField (escaped : Char → Bool) : Option String → Option (Option String)
  | none => some none
  | some text => (readQuoted escaped text).map some

/-- The peer that is read from the block. -/
def NewPeer.readBack (escaped : Char → Bool) (peer : NewPeer) (config : Config) :
    Option PeerConfig := do
  let name ← readField escaped peer.name
  let dnsName ← readField escaped peer.dnsName
  let inviteId ← readField escaped peer.inviteId
  let invitedById ← readField escaped peer.invitedById
  let invitedByName ← readField escaped peer.invitedByName
  return {
    name := name
    dnsName := dnsName
    inviteId := inviteId
    inviteIssuedAt := peer.inviteIssuedAt
    inviteExpiresAt := peer.inviteExpiresAt
    invitedById := invitedById
    invitedByName := invitedByName
    inviteRequiresApproval := config.interface.requireInviteApproval && peer.inviteId.isSome
    publicKey := peer.publicKey
    allowedIps := [Ipv4Net.host peer.ip] }

/-- What `append_peer` checks before it writes. -/
def checkNewPeer (peer : NewPeer) (config : Config) : Except String Unit := do
  config.validate
  let subnet := config.interface.address.trunc
  refuseIf (subnet.contains peer.ip = false)
    s!"IP {peer.ip.display} はトンネルのサブネット {subnet.display} の範囲外です"
  refuseIf (peer.ip = config.interface.address.addr)
    s!"IP {peer.ip.display} はホスト自身のアドレスです"
  refuseIf (config.peers.any (fun other => other.publicKey = peer.publicKey))
    s!"公開鍵 {peer.publicKey.toBase64} のピアは既に登録されています"
  let used := usedIps config
  let suggestion :=
    match nextFreeIp subnet used with
    | some free => s!"(空きの例: {free.display})"
    | none => ""
  refuseIf (peer.ip ∈ used) s!"IP {peer.ip.display} は使用済みです{suggestion}"

/-- `append_peer`: the block is written behind the text that was there, and `write_validated` reads
both. -/
def appendPeerText (escaped : Char → Bool) (peer : NewPeer) (config : Config) :
    Except String Config := do
  checkNewPeer peer config
  match peer.readBack escaped config with
  | none => .error "編集結果の TOML が不正です"
  | some entry => writeValidated { config with peers := config.peers ++ [entry] }

end PeerCove
