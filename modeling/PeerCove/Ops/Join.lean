/-
Module: PeerCove.Ops.Join
Layer: Operations
Purpose: Joining with the token of an invitation: the key file, the PSK file, `member.toml` as it is
  written, and the configuration that is read from it.
Trusted boundary: base64 and `{:?}` are parameters; what the clock, the random numbers and the
  writes come to is an input; numbers, keys and addresses are read as they were written
Main exports: MemberToml, renderMemberConfig, MemberToml.load, join
-/
import PeerCove.Core.Token
import PeerCove.Core.Validate
import PeerCove.Library.Stateful
import PeerCove.Ops.KeyFiles
import PeerCove.Ops.PeerBlock

namespace PeerCove

open Fallible Stateful

/-! ### What stands in the files -/

/-- `member.toml` as it is written; texts with their quotes. -/
structure MemberToml where
  networkName : List Char
  displayName : List Char
  deviceId : Option (List Char)
  privateKeyFile : List Char
  address : Ipv4Net
  controlHost : Ipv4Addr
  publicKey : PublicKey
  endpoint : Option SocketAddrV4
  endpointFallbacks : List SocketAddrV4
  allowedIps : List Ipv4Net
  persistentKeepalive : UInt16
  presharedKeyFile : Option (List Char)
deriving DecidableEq

/-- A file as a write leaves it. -/
inductive FileContent (α : Type) where
  | whole (content : α)
  | torn
deriving DecidableEq

/-- `member.key`, `member.toml` and `member.psk` of a directory. -/
structure MemberFiles where
  key : Option (FileContent PrivateKey)
  toml : Option (FileContent MemberToml)
  psk : Option (FileContent PresharedKey)
deriving DecidableEq

/-- What a write leaves of a file. -/
def FileWrite.leaves {α : Type} (outcome : FileWrite) (content : α)
    (before : Option (FileContent α)) : Option (FileContent α) :=
  match outcome with
  | .done => some (.whole content)
  | .untouched => before
  | .torn => some .torn

/-! ### `member.toml` -/

/-- A text between quotes as it is. -/
def rawText (text : String) : List Char :=
  '"' :: (text.toList ++ ['"'])

/-- `render_member_config`.  There is an endpoint in every token that was parsed. -/
def renderMemberConfig (escaped : Char → Bool) (token : InviteToken) (deviceId : Option String) :
    MemberToml where
  networkName := rawText (token.network.getD Names.DEFAULT_NETWORK_NAME)
  displayName := BasicString.debugText escaped token.name.toList
  deviceId := deviceId.map rawText
  privateKeyFile := rawText "member.key"
  address := token.memberAddress
  controlHost := token.hostVirtualIp
  publicKey := token.hostPublicKey
  endpoint := token.endpoints.head?
  endpointFallbacks := token.endpoints.tail
  allowedIps := [token.memberAddress.trunc]
  persistentKeepalive := 25
  presharedKeyFile := token.presharedKey.map (fun _ => rawText "member.psk")

/-- What a member reads: the configuration, and what only members have of it. -/
structure MemberConfig where
  config : Config
  privateKeyFile : String
  controlHost : Ipv4Addr
  endpointFallbacks : List SocketAddrV4
  presharedKeyFile : Option String
deriving DecidableEq

/-- A text of the file, as TOML reads it. -/
def readText (text : List Char) : Option String :=
  match BasicString.read text with
  | some (value, []) => some (String.ofList value)
  | _ => none

/-- A text that is not always there. -/
def readOptional : Option (List Char) → Option (Option String)
  | none => some none
  | some text => (readText text).map some

/-- What is read, before it is checked. -/
def MemberToml.read (toml : MemberToml) : Option MemberConfig := do
  let networkName ← readText toml.networkName
  let displayName ← readText toml.displayName
  let deviceId ← readOptional toml.deviceId
  let privateKeyFile ← readText toml.privateKeyFile
  let presharedKeyFile ← readOptional toml.presharedKeyFile
  return {
    config := {
      interface := {
        networkName := some networkName
        displayName := some displayName
        deviceId := deviceId
        address := toml.address }
      peers := [{
        publicKey := toml.publicKey
        endpoint := toml.endpoint.map (fun endpoint => .v4 endpoint.ip endpoint.port)
        allowedIps := toml.allowedIps
        persistentKeepalive := some toml.persistentKeepalive }] }
    privateKeyFile := privateKeyFile
    controlHost := toml.controlHost
    endpointFallbacks := toml.endpointFallbacks
    presharedKeyFile := presharedKeyFile }

/-- `Config::load`. -/
def MemberToml.load (toml : MemberToml) : Except String MemberConfig :=
  match toml.read with
  | none => .error "設定ファイルの解析に失敗しました"
  | some member => do
      member.config.validate
      return member

/-! ### Joining -/

/-- What the call draws and meets on the machine. -/
structure JoinIo where
  /-- Seconds since the epoch, unless the clock is before it. -/
  now : Option UInt64
  /-- The random bytes of the device id. -/
  deviceId : BitVec 128
  dirCreated : Bool := true
  keyWrite : FileWrite := .done
  pskWrite : FileWrite := .done
  tomlWrite : FileWrite := .done

/-- `generate_invite_id`. -/
def JoinIo.generateDeviceId (io : JoinIo) : String :=
  encodeInviteId (Wire.bigEndian INVITE_ID_LEN io.deviceId.toNat)

structure JoinResult where
  hasPsk : Bool
  name : String
  network : String
  address : Ipv4Net
  endpoint : Option SocketAddrV4
  otherEndpoints : List SocketAddrV4
  hostVirtualIp : Ipv4Addr
deriving DecidableEq

/-- An invitation of version 3 is not taken up when its time is over. -/
def checkExpiry (io : JoinIo) (token : InviteToken) : Except String Unit :=
  match token.inviteId, io.now with
  | none, _ => .ok ()
  | some _, none => .error "システム時刻が不正なため招待期限を確認できません"
  | some _, some now =>
      refuseIf (token.expiresAt.any (· ≤ now))
        "この招待は期限切れです。ホスト管理者から新しい招待を受け取ってください"

abbrev JoinOp : Type → Type := Stateful MemberFiles String

/-- What is there is overwritten on request only. -/
def checkFree (outDir : String) (force : Bool) : JoinOp Unit := do
  let files ← query id
  refuse (files.key.isSome ∧ force = false) s!"{outDir}/member.key は既に存在します"
  refuse (files.toml.isSome ∧ force = false) s!"{outDir}/member.toml は既に存在します"

def saveMemberKey (io : JoinIo) (key : PrivateKey) : JoinOp Unit := do
  execute (fun files => { files with key := io.keyWrite.leaves key files.key })
  refuse (io.keyWrite ≠ .done) "秘密鍵の保存に失敗しました"

def saveMemberPsk (io : JoinIo) : Option PresharedKey → JoinOp Unit
  | none => return
  | some psk => do
      execute (fun files => { files with psk := io.pskWrite.leaves psk files.psk })
      refuse (io.pskWrite ≠ .done) "PSK の保存に失敗しました"

def saveMemberToml (io : JoinIo) (outDir : String) (toml : MemberToml) : JoinOp Unit := do
  execute (fun files => { files with toml := io.tomlWrite.leaves toml files.toml })
  refuse (io.tomlWrite ≠ .done) s!"{outDir}/member.toml の書き込みに失敗しました"

section

variable (decodeBase64 : String → Option (List UInt8)) (escaped : Char → Bool)

/-- `join`. -/
def join (io : JoinIo) (outDir : String) (force : Bool) (text : String) : JoinOp JoinResult := do
  let token ← lift (InviteToken.parse decodeBase64 text)
  lift (checkExpiry io token)
  let deviceId := token.inviteId.map (fun _ => io.generateDeviceId)
  refuse (io.dirCreated = false) s!"{outDir} の作成に失敗しました"
  checkFree outDir force
  saveMemberKey io token.memberPrivateKey
  saveMemberPsk io token.presharedKey
  let toml := renderMemberConfig escaped token deviceId
  saveMemberToml io outDir toml
  let _ ← expect toml.load.toOption "生成した設定の検証に失敗しました(バグの可能性)"
  return {
    hasPsk := token.presharedKey.isSome
    name := token.name
    network := token.network.getD Names.DEFAULT_NETWORK_NAME
    address := token.memberAddress
    endpoint := token.endpoints.head?
    otherEndpoints := token.endpoints.tail
    hostVirtualIp := token.hostVirtualIp }

end

end PeerCove
