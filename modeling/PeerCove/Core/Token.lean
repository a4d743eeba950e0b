/-
Module: PeerCove.Core.Token
Layer: Core
Purpose: Invitation tokens of the format pcv1: their checks, their bytes and their reader.
Trusted boundary: the base64 codec, as two functions; UTF-8 as Lean reads and writes it
Main exports: InviteToken, InviteToken.validate, InviteToken.payload, InviteToken.encode,
  InviteToken.reader, InviteToken.parse
-/
import PeerCove.Core.Names
import PeerCove.Core.Config
import PeerCove.Library.Fallible
import PeerCove.Library.Wire

namespace PeerCove

open Fallible Wire

/-- An X25519 private key. -/
structure PrivateKey where
  bytes : BitVec 256
deriving DecidableEq

structure PresharedKey where
  bytes : BitVec 256
deriving DecidableEq

structure SocketAddrV4 where
  ip : Ipv4Addr
  port : UInt16
deriving DecidableEq

def TOKEN_PREFIX : String := "pcv1."
def INVITE_ID_LEN : Nat := 16
def KEY_LEN : Nat := 32
def MAX_ENDPOINTS : Nat := 4

/-- Longest name of a member, in bytes. -/
def MAX_NAME_LEN : Nat := 64

structure InviteToken where
  memberPrivateKey : PrivateKey
  hostPublicKey : PublicKey
  presharedKey : Option PresharedKey
  memberAddress : Ipv4Net
  hostVirtualIp : Ipv4Addr
  endpoints : List SocketAddrV4
  name : String
  network : Option String
  inviteId : Option String
  issuedAt : Option UInt64
  expiresAt : Option UInt64
deriving DecidableEq

/-! ### Invitation ids -/

def INVALID_INVITE_ID : String := "招待 ID が不正です"

/-- `u8::is_ascii_hexdigit`. -/
def isHexDigit (byte : UInt8) : Bool :=
  Text.isAsciiHexDigit (Char.ofNat byte.toNat)

/-- Value of one hexadecimal digit. -/
def hexValue (byte : UInt8) : Nat :=
  if byte.toNat ≤ 57 then byte.toNat - 48
  else if byte.toNat ≤ 70 then byte.toNat - 55
  else byte.toNat - 87

/-- `{:02x}`, one digit. -/
def hexDigit (value : Nat) : Char :=
  Char.ofNat (if value < 10 then value + 48 else value + 87)

/-- `chunks_exact(2)`, each chunk read as a byte. -/
def hexPairs : List UInt8 → List UInt8
  | high :: low :: rest => UInt8.ofNat (hexValue high * 16 + hexValue low) :: hexPairs rest
  | _ => []

def encodeInviteId (bytes : List UInt8) : String :=
  String.ofList (bytes.flatMap (fun byte =>
    [hexDigit (byte.toNat / 16), hexDigit (byte.toNat % 16)]))

def decodeInviteId (value : String) : Except String (List UInt8) := do
  let digits := Text.utf8Bytes value
  refuseIf (Text.len value ≠ INVITE_ID_LEN * 2 ∨ digits.all isHexDigit = false) INVALID_INVITE_ID
  return hexPairs digits

namespace InviteToken

/-! ### Checks -/

/-- The part of the checks that is about the invitation of version 3. -/
def validateInvite (token : InviteToken) : Except String Unit :=
  match token.inviteId, token.issuedAt with
  | some id, some issuedAt => do
      let _ ← decodeInviteId id
      match token.expiresAt with
      | some expiresAt =>
          refuseIf (expiresAt ≤ issuedAt) "招待期限は発行時刻より後にしてください"
      | none => return
  | none, none =>
      refuseIf (token.expiresAt.isSome = true) "招待 v3 のメタデータが不完全です"
  | _, _ => .error "招待 v3 のメタデータが不完全です"

/-- The part of the checks that is about the name of the network. -/
def validateNetwork (network : Option String) : Except String Unit :=
  match network with
  | some network =>
      refuseIf (Names.isDnsLabel network = false)
        s!"ネットワーク名 \"{network}\" が不正です(正規化済みの DNS ラベルのみ)"
  | none => return

/-- `validate`, which both directions call. -/
def validate (token : InviteToken) : Except String Unit := do
  refuseIf (token.endpoints = [] ∨ token.endpoints.length > MAX_ENDPOINTS)
    s!"エンドポイント数が不正です(1〜{MAX_ENDPOINTS}、実際 {token.endpoints.length})"
  refuseIf (Text.len token.name = 0 ∨ Text.len token.name > MAX_NAME_LEN)
    s!"名前の長さが不正です(1〜{MAX_NAME_LEN} バイト、実際 {Text.len token.name})"
  refuseIf (token.memberAddress.prefixLen > 30)
    s!"プレフィックス長 /{token.memberAddress.prefixLen} が不正です"
  validateNetwork token.network
  token.validateInvite

/-! ### Writing -/

def keyBytes (key : BitVec 256) : List UInt8 :=
  bigEndian KEY_LEN key.toNat

def ipBytes (ip : Ipv4Addr) : List UInt8 :=
  bigEndian 4 ip.toNat

def endpointBytes (endpoint : SocketAddrV4) : List UInt8 :=
  ipBytes endpoint.ip ++ bigEndian 2 endpoint.port.toNat

/-- A length in one byte and then the text. -/
def textBytes (text : String) : List UInt8 :=
  UInt8.ofNat (Text.len text) :: Text.utf8Bytes text

/-- The version is chosen by what the token carries. -/
def version (token : InviteToken) : UInt8 :=
  if token.inviteId.isSome then 3 else if token.network.isSome then 2 else 1

/-- The flags, and the key they announce. -/
def pskBytes (psk : Option PresharedKey) : List UInt8 :=
  match psk with
  | some psk => 1 :: keyBytes psk.bytes
  | none => [0]

/-- What version 1 consists of, after the version. -/
def baseBytes (token : InviteToken) : List UInt8 :=
  keyBytes token.memberPrivateKey.bytes ++ (keyBytes token.hostPublicKey.bytes ++
    (pskBytes token.presharedKey ++ (ipBytes token.memberAddress.addr ++
      (UInt8.ofNat token.memberAddress.prefixLen :: (ipBytes token.hostVirtualIp ++
        (UInt8.ofNat token.endpoints.length :: (token.endpoints.flatMap endpointBytes ++
          textBytes token.name)))))))

/-- The end of version 3. -/
def inviteBytes (token : InviteToken) : Except String (List UInt8) :=
  match token.inviteId, token.issuedAt with
  | some id, some issuedAt => do
      let bytes ← decodeInviteId id
      return (if token.network.isNone then [0] else []) ++ (bytes ++
        (bigEndian 8 issuedAt.toNat ++ bigEndian 8 (token.expiresAt.getD 0).toNat))
  | _, _ => return []

def networkBytes (network : Option String) : List UInt8 :=
  match network with
  | some network => textBytes network
  | none => []

def payload (token : InviteToken) : Except String (List UInt8) := do
  token.validate
  let invite ← token.inviteBytes
  return token.version :: (token.baseBytes ++ (networkBytes token.network ++ invite))

/-- `encode`, with the base64 encoder. -/
def encode (base64 : List UInt8 → String) (token : InviteToken) : Except String String := do
  let bytes ← token.payload
  return TOKEN_PREFIX ++ base64 bytes

end InviteToken

/-! ### Reading -/

namespace TokenReader

abbrev Reader (α : Type) := Wire.Reader String α

/-- `Reader::bytes`. -/
def bytes (len : Nat) : Reader (List UInt8) :=
  take "トークンが途中で切れています(コピー漏れの可能性)" len

/-- A number of that many bytes. -/
def number (len : Nat) : Reader Nat := do
  return bigValue (← bytes len)

def u8 : Reader Nat :=
  number 1

def key : Reader (BitVec 256) := do
  return BitVec.ofNat 256 (← number KEY_LEN)

def ip : Reader Ipv4Addr := do
  return BitVec.ofNat 32 (← number 4)

def endpoint : Reader SocketAddrV4 := do
  let ip ← ip
  let port ← number 2
  return { ip := ip, port := UInt16.ofNat port }

/-- A length in one byte and then the text. -/
def text (error : String) : Reader String := do
  let len ← u8
  let bytes ← bytes len
  match Text.fromUtf8 bytes with
  | some text => return text
  | none => check (.error error)

def psk : Reader (Option PresharedKey) := do
  let flags ← u8
  if flags % 2 = 1 then
    return some ⟨← key⟩
  else
    return none

/-- `Ipv4Net::new`. -/
def net (ip : Ipv4Addr) (prefixLen : Nat) : Except String Ipv4Net :=
  if fits : prefixLen ≤ 32 then .ok ⟨ip, prefixLen, fits⟩
  else .error "仮想 IP のプレフィックスが不正です"

def network (version : Nat) : Reader (Option String) := do
  if version ≥ 2 then
    let text ← text "ネットワーク名が UTF-8 ではありません"
    return if text = "" then none else some text
  else
    return none

/-- Id, time of issue and expiry. -/
def invite (version : Nat) : Reader (Option String × Option UInt64 × Option UInt64) := do
  if version ≥ 3 then
    let id ← bytes INVITE_ID_LEN
    let issued ← number 8
    let expires ← number 8
    return (some (encodeInviteId id), some (UInt64.ofNat issued),
      if expires ≠ 0 then some (UInt64.ofNat expires) else none)
  else
    return (none, none, none)

end TokenReader

namespace InviteToken

open TokenReader

/-- The reads of `parse`, up to the end of the input. -/
def reader : Reader InviteToken := do
  let version ← u8
  check (refuseIf (version ≠ 1 ∧ version ≠ 2 ∧ version ≠ 3)
    s!"未対応のトークンバージョンです({version})。新しい peercove に更新してください")
  let memberPrivateKey ← key
  let hostPublicKey ← key
  let presharedKey ← psk
  let memberIp ← ip
  let prefixLen ← u8
  let memberAddress ← check (net memberIp prefixLen)
  let hostVirtualIp ← ip
  let count ← u8
  check (refuseIf (count = 0 ∨ count > MAX_ENDPOINTS) "エンドポイント数が不正です")
  let endpoints ← times count endpoint
  let name ← text "名前が UTF-8 ではありません"
  let network ← TokenReader.network version
  let invite ← TokenReader.invite version
  return {
    memberPrivateKey := ⟨memberPrivateKey⟩
    hostPublicKey := ⟨hostPublicKey⟩
    presharedKey := presharedKey
    memberAddress := memberAddress
    hostVirtualIp := hostVirtualIp
    endpoints := endpoints
    name := name
    network := network
    inviteId := invite.1
    issuedAt := invite.2.1
    expiresAt := invite.2.2 }

/-- The part of `parse` behind base64. -/
def parsePayload (bytes : List UInt8) : Except String InviteToken := do
  let token ← finish "トークン末尾に余分なデータがあります" reader bytes
  token.validate
  return token

/-- `parse`, with the base64 decoder. -/
def parse (decode : String → Option (List UInt8)) (text : String) : Except String InviteToken :=
  match Text.stripPrefix (Text.trim text) TOKEN_PREFIX with
  | none =>
      .error "pcv1 形式ではありません(`pcv1.` で始まる文字列を貼り付けてください)"
  | some body =>
      match decode body with
      | none =>
          .error "base64 として解釈できません(コピー漏れ・改行混入がないか確認してください)"
      | some bytes => parsePayload bytes

end InviteToken

end PeerCove
