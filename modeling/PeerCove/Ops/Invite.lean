/-
Module: PeerCove.Ops.Invite
Layer: Operations
Purpose: Issuing an invitation: the checks, the PSK file, the peer in `host.toml`, and the token.
Trusted boundary: X25519, base64 and `{:?}` are parameters; what the clock, the random numbers and
  the accesses to files come to is an input; nobody else writes `host.toml` meanwhile
Main exports: HostFiles, InviteOptions, InviteIo, planInvite, invite
-/
import PeerCove.Core.Ledger
import PeerCove.Ops.KeyFiles
import PeerCove.Ops.PeerEdits
import Mathlib.Logic.Function.Basic

namespace PeerCove

open Fallible

/-! ### Files and inputs -/

/-- What stands in `peer-<IP>.psk`. -/
inductive PskFile where
  | key (key : PresharedKey)
  | torn
deriving DecidableEq

/-- `host.toml` and the PSK files beside it, by the address in their name.  A `host.toml` that
cannot be read, or is no configuration, is `none`. -/
structure HostFiles where
  hostToml : Option Config
  psk : Ipv4Addr → Option PskFile

/-- `InviteOptions`, without the path. -/
structure InviteOptions where
  name : Option String := none
  ip : Option Ipv4Addr := none
  extraEndpoints : List SocketAddrV4 := []
  psk : Bool := false
  expiresInSecs : Option UInt64 := none
  invitedBy : Option (String × String) := none

/-- What the call draws and meets on the machine. -/
structure InviteIo where
  /-- `interface.listen_port`. -/
  listenPort : Option UInt16 := none
  /-- `default_route_local_ip`. -/
  lanIp : Option Ipv4Addr
  memberPrivateKey : PrivateKey
  presharedKey : PresharedKey
  /-- The random bytes of the invitation id. -/
  inviteId : BitVec 128
  /-- Seconds since the epoch, unless the clock is before it. -/
  now : Option UInt64
  pskWrite : FileWrite := .done
  lockTaken : Bool := true
  hostWrite : FileWrite := .done
  /-- What is read from `interface.private_key_file`. -/
  hostKey : Option PrivateKey

/-- `generate_invite_id`. -/
def InviteIo.generateInviteId (io : InviteIo) : String :=
  encodeInviteId (Wire.bigEndian INVITE_ID_LEN io.inviteId.toNat)

/-! ### Before anything is written -/

def inviteIp (options : InviteOptions) (config : Config) : Except String Ipv4Addr :=
  let subnet := config.interface.address.trunc
  match options.ip with
  | some ip => .ok ip
  | none =>
      match nextFreeIp subnet (usedIps config) with
      | some ip => .ok ip
      | none => .error s!"サブネット {subnet.display} に空き IP がありません"

/-- The address in the LAN first, then the given ones, none twice. -/
def inviteEndpoints (io : InviteIo) (options : InviteOptions) : List SocketAddrV4 :=
  let lan := io.lanIp.toList.map (fun ip =>
    { ip := ip, port := io.listenPort.getD DEFAULT_LISTEN_PORT })
  options.extraEndpoints.foldl
    (fun listed endpoint => if endpoint ∈ listed then listed else listed ++ [endpoint]) lan

/-- The label a new member gets: made of its name or its address, and made unique by the loop of
`uniquify`. -/
def inviteDnsName (config : Config) (name : String) (ip : Ipv4Addr) : String :=
  let base :=
    match Names.normalizeDnsName name false with
    | .ok label => label
    | .error _ => s!"member-{ip.octet 3}"
  uniquify base (ip.octet 3) (takenDnsLabels config .none)

def inviteIssuedAt (io : InviteIo) : Except String UInt64 :=
  match io.now with
  | some now => .ok now
  | none => .error "システム時刻が UNIX epoch より前です"

/-- `checked_add`. -/
def inviteExpiresAt (options : InviteOptions) (issuedAt : UInt64) :
    Except String (Option UInt64) :=
  match options.expiresInSecs with
  | none => .ok none
  | some seconds =>
      if issuedAt.toNat + seconds.toNat < 2 ^ 64 then .ok (some (issuedAt + seconds))
      else .error "招待期限が時刻範囲を超えます"

/-- What is settled before the first file is written. -/
structure InvitePlan where
  ip : Ipv4Addr
  name : String
  endpoints : List SocketAddrV4
  dnsName : String
  issuedAt : UInt64
  expiresAt : Option UInt64

def planInvite (io : InviteIo) (options : InviteOptions) (config : Config) :
    Except String InvitePlan := do
  config.validate
  let ip ← inviteIp options config
  let name := options.name.getD s!"member-{ip.octet 3}"
  validateName name
  refuseIf (config.peers.any (fun peer => peer.name = some name))
    s!"名前 {name} のピアは既に存在します(別の名前を指定してください)"
  let endpoints := inviteEndpoints io options
  refuseIf (endpoints = []) "エンドポイントを決定できませんでした。ホストへの到達先を指定してください"
  let issuedAt ← inviteIssuedAt io
  let expiresAt ← inviteExpiresAt options issuedAt
  return {
    ip := ip
    name := name
    endpoints := endpoints
    dnsName := inviteDnsName config name ip
    issuedAt := issuedAt
    expiresAt := expiresAt }

/-! ### The PSK file -/

/-- `write_secret` on `peer-<IP>.psk`, and whether it succeeds. -/
def HostFiles.writePsk (files : HostFiles) (outcome : FileWrite) (ip : Ipv4Addr)
    (key : PresharedKey) : Bool × HostFiles :=
  match outcome with
  | .done => (true, { files with psk := Function.update files.psk ip (some (.key key)) })
  | .untouched => (false, files)
  | .torn => (false, { files with psk := Function.update files.psk ip (some .torn) })

/-- The PSK file is written before the peer is. -/
def savePsk (io : InviteIo) (options : InviteOptions) (plan : InvitePlan) (files : HostFiles) :
    Bool × HostFiles :=
  if options.psk then files.writePsk io.pskWrite plan.ip io.presharedKey else (true, files)

/-! ### The peer -/

section

variable (publicKey : PrivateKey → PublicKey) (escaped : Char → Bool)
  (base64 : List UInt8 → String)

def InvitePlan.peer (plan : InvitePlan) (io : InviteIo) (options : InviteOptions) : NewPeer where
  publicKey := publicKey io.memberPrivateKey
  ip := plan.ip
  name := some plan.name
  dnsName := some plan.dnsName
  inviteId := some io.generateInviteId
  inviteIssuedAt := some plan.issuedAt.toNat
  inviteExpiresAt := plan.expiresAt.map UInt64.toNat
  invitedById := options.invitedBy.map Prod.fst
  invitedByName := options.invitedBy.map Prod.snd

/-- `append_peer` on the file, which is written in place. -/
def appendToFile (io : InviteIo) (peer : NewPeer) (files : HostFiles) :
    Except String Unit × HostFiles :=
  if io.lockTaken = false then (.error "host.toml のロックに失敗しました", files)
  else
    match files.hostToml with
    | none => (.error "host.toml の読み込みに失敗しました", files)
    | some config =>
        match appendPeer escaped peer config with
        | .error error => (.error error, files)
        | .ok written =>
            match io.hostWrite with
            | .done => (.ok (), { files with hostToml := some written })
            | .untouched => (.error "host.toml の書き込みに失敗しました", files)
            | .torn => (.error "host.toml の書き込みに失敗しました", { files with hostToml := none })

/-! ### The token -/

structure InviteResult where
  token : String
  name : String
  ip : Ipv4Addr
  endpoints : List SocketAddrV4
  psk : Bool
  inviteId : String
  issuedAt : UInt64
  expiresAt : Option UInt64
deriving DecidableEq

def InvitePlan.token (plan : InvitePlan) (io : InviteIo) (options : InviteOptions)
    (config : Config) (hostPublicKey : PublicKey) : InviteToken where
  memberPrivateKey := io.memberPrivateKey
  hostPublicKey := hostPublicKey
  presharedKey := if options.psk then some io.presharedKey else none
  memberAddress := {
    addr := plan.ip
    prefixLen := config.interface.address.trunc.prefixLen
    prefixLen_le := config.interface.address.trunc.prefixLen_le }
  hostVirtualIp := config.interface.address.addr
  endpoints := plan.endpoints
  name := plan.name
  network := config.interface.networkName
  inviteId := some io.generateInviteId
  issuedAt := some plan.issuedAt
  expiresAt := plan.expiresAt

/-- `host_public_key`. -/
def hostPublicKey (io : InviteIo) : Except String PublicKey :=
  match io.hostKey with
  | some key => .ok (publicKey key)
  | none => .error "ホストの秘密鍵の読み込みに失敗しました"

/-- What follows once the peer is registered. -/
def issueToken (io : InviteIo) (options : InviteOptions) (config : Config) (plan : InvitePlan) :
    Except String InviteResult := do
  let hostKey ← hostPublicKey publicKey io
  let token ← (plan.token io options config hostKey).encode base64
  return {
    token := token
    name := plan.name
    ip := plan.ip
    endpoints := plan.endpoints
    psk := options.psk
    inviteId := io.generateInviteId
    issuedAt := plan.issuedAt
    expiresAt := plan.expiresAt }

/-- The part of `invite` that writes. -/
def carryOut (io : InviteIo) (options : InviteOptions) (config : Config) (plan : InvitePlan)
    (files : HostFiles) : Except String InviteResult × HostFiles :=
  match savePsk io options plan files with
  | (false, saved) => (.error "ホスト側 PSK ファイルの保存に失敗しました", saved)
  | (true, saved) =>
      match appendToFile escaped io (plan.peer publicKey io options) saved with
      | (.error error, left) => (.error error, left)
      | (.ok (), left) => (issueToken publicKey base64 io options config plan, left)

/-- `invite`. -/
def invite (io : InviteIo) (options : InviteOptions) (files : HostFiles) :
    Except String InviteResult × HostFiles :=
  match files.hostToml with
  | none => (.error "host.toml の読み込みに失敗しました", files)
  | some config =>
      match planInvite io options config with
      | .error error => (.error error, files)
      | .ok plan => carryOut publicKey escaped base64 io options config plan files

end

end PeerCove
