/-
Module: PeerCove.Ops.Backup
Layer: Operations
Purpose: Encrypted backups of a network: what `create` collects, the JSON text and the header it
  writes, and `decrypt` with its checks.
Trusted boundary: toml, toml_edit, base64, the reader of serde_json, Argon2 and XChaCha20-Poly1305
  are parameters; the snapshot of the memo database, the random bytes and the clock are inputs
Main exports: BackupPayload, BackupTools, BackupSource, collect, createBackup, decryptBackup,
  inspectBackup
-/
import PeerCove.Core.Validate
import PeerCove.Library.UnixPath
import PeerCove.Library.Wire

namespace PeerCove

def HOST_FILE : String := "host.toml"
def MEMBER_FILE : String := "member.toml"

namespace Backup

def MAGIC : List UInt8 := Text.utf8Bytes "PCVBKUP1"
def FORMAT_VERSION : Nat := 1
def SALT_LEN : Nat := 16
def NONCE_LEN : Nat := 24
def HEADER_LEN : Nat := 8 + 2 + 4 + 4 + 4 + SALT_LEN + NONCE_LEN + 8
def MEMORY_KIB : Nat := 64 * 1024
def ITERATIONS : Nat := 3
def PARALLELISM : Nat := 1
def MAX_BACKUP_BYTES : Nat := 256 * 1024 * 1024

/-- The Poly1305 tag. -/
def TAG_LEN : Nat := 16

end Backup

inductive BackupRole where
  | host
  | member
deriving Repr, DecidableEq

structure BackupPreview where
  networkName : String
  role : BackupRole
  sourceOs : String
  createdAtUnixMs : Nat
  categories : List String
  configFile : String
  memberKeyRotationRecommended : Bool
deriving DecidableEq

structure BackupFile where
  path : String
  contentBase64 : String
  secret : Bool
deriving DecidableEq

structure BackupPayload where
  preview : BackupPreview
  files : List BackupFile
deriving DecidableEq

inductive BackupError where
  | failed (message : String)
  /-- An error of the file system that nothing is added to. -/
  | io
  /-- `Item::index_mut` on what is no table. -/
  | panicked
deriving DecidableEq

/-- The value, or an error with a message. -/
def orFail {α : Type} (value : Option α) (message : String) : Except BackupError α :=
  match value with
  | some value => .ok value
  | none => .error (.failed message)

/-! ### The JSON text, as its characters -/

/-- A character inside a string of serde_json. -/
def jsonChar (c : Char) : List Char :=
  if c = '"' then ['\\', '"']
  else if c = '\\' then ['\\', '\\']
  else if c = '\n' then ['\\', 'n']
  else if c = '\r' then ['\\', 'r']
  else if c = '\t' then ['\\', 't']
  else if c.toNat = 8 then ['\\', 'b']
  else if c.toNat = 12 then ['\\', 'f']
  else if c.toNat < 32 then
    let digits := Nat.toDigits 16 c.toNat
    ['\\', 'u'] ++ List.replicate (4 - digits.length) '0' ++ digits
  else [c]

def jsonString (text : String) : List Char :=
  '"' :: text.toList.flatMap jsonChar ++ ['"']

def jsonBool (value : Bool) : List Char :=
  if value then ['t', 'r', 'u', 'e'] else ['f', 'a', 'l', 's', 'e']

def jsonArray (items : List (List Char)) : List Char :=
  '[' :: [','].intercalate items ++ [']']

def jsonObject (fields : List (String × List Char)) : List Char :=
  '\x7b' :: [','].intercalate (fields.map (fun field => jsonString field.1 ++ ':' :: field.2)) ++
    ['\x7d']

def BackupRole.text : BackupRole → String
  | .host => "host"
  | .member => "member"

def BackupPreview.json (preview : BackupPreview) : List Char :=
  jsonObject [
    ("networkName", jsonString preview.networkName),
    ("role", jsonString preview.role.text),
    ("sourceOs", jsonString preview.sourceOs),
    ("createdAtUnixMs", Nat.toDigits 10 preview.createdAtUnixMs),
    ("categories", jsonArray (preview.categories.map jsonString)),
    ("configFile", jsonString preview.configFile),
    ("memberKeyRotationRecommended", jsonBool preview.memberKeyRotationRecommended)]

def BackupFile.json (file : BackupFile) : List Char :=
  jsonObject [
    ("path", jsonString file.path),
    ("content_base64", jsonString file.contentBase64),
    ("secret", jsonBool file.secret)]

/-- `serde_json::to_vec`. -/
def BackupPayload.toVec (payload : BackupPayload) : List UInt8 :=
  (jsonObject [
    ("preview", payload.preview.json),
    ("files", jsonArray (payload.files.map BackupFile.json))]).flatMap String.utf8EncodeChar

/-! ### The configuration as a document -/

/-- What `toml::from_str` reads: the configuration with the paths of its secrets, those of the PSKs
peer by peer. -/
structure FileConfig where
  config : Config
  privateKeyFile : String
  presharedKeyFiles : List (Option String)
deriving DecidableEq

/-- toml and toml_edit, with its documents. -/
structure TomlTools (δ : Type) where
  /-- `toml::from_str`, of a text in UTF-8. -/
  fromStr : List UInt8 → Option FileConfig
  /-- `parse::<DocumentMut>()`, of a text in UTF-8. -/
  parse : List UInt8 → Option δ
  print : δ → List UInt8
  /-- Assignments to keys of `[interface]`; `none` where it is no table, which panics. -/
  setPrivateKeyFile : String → δ → Option δ
  setNetworkName : String → δ → Option δ
  /-- The length of `[[peer]]`, if it is an array of tables. -/
  peerTables : δ → Option Nat
  setPresharedKeyFile : Nat → String → δ → δ

/-- `Config::load` makes relative paths relative to the directory of the file. -/
def resolvePath (baseDir path : String) : String :=
  if UnixPath.isAbsolute path then path else baseDir ++ "/" ++ path

def FileConfig.resolve (baseDir : String) (file : FileConfig) : FileConfig :=
  { file with
    privateKeyFile := resolvePath baseDir file.privateKeyFile
    presharedKeyFiles := file.presharedKeyFiles.map (Option.map (resolvePath baseDir)) }

/-- `Config::load` of a text. -/
def TomlTools.load {δ : Type} (toml : TomlTools δ) (baseDir : String) (text : List UInt8) :
    Option FileConfig :=
  match toml.fromStr text with
  | none => none
  | some file =>
      match file.config.validate with
      | .ok () => some (file.resolve baseDir)
      | .error _ => none

/-- The libraries that backups rest on. -/
structure BackupTools (δ κ : Type) where
  toml : TomlTools δ
  encode : List UInt8 → String
  decode : String → Option (List UInt8)
  /-- `serde_json::from_slice`. -/
  fromSlice : List UInt8 → Option BackupPayload
  /-- Argon2id with its memory, iterations and parallelism, of a passphrase and a salt. -/
  argon2 : Nat → Nat → Nat → List UInt8 → List UInt8 → Option κ
  /-- A key, a nonce and the bytes that are authenticated beside the message. -/
  encrypt : κ → List UInt8 → List UInt8 → List UInt8 → Option (List UInt8)
  decrypt : κ → List UInt8 → List UInt8 → List UInt8 → Option (List UInt8)

/-! ### The header -/

structure BackupHeader where
  memoryKib : Nat
  iterations : Nat
  parallelism : Nat
  salt : List UInt8
  nonce : List UInt8
  ciphertextLen : Nat
deriving DecidableEq

def littleEndian (count value : Nat) : List UInt8 :=
  (Wire.bigEndian count value).reverse

def littleValue (bytes : List UInt8) : Nat :=
  Wire.bigValue bytes.reverse

def encodeHeader (header : BackupHeader) : List UInt8 :=
  Backup.MAGIC ++ littleEndian 2 Backup.FORMAT_VERSION ++ littleEndian 4 header.memoryKib ++
    littleEndian 4 header.iterations ++ littleEndian 4 header.parallelism ++ header.salt ++
    header.nonce ++ littleEndian 8 header.ciphertextLen

/-- The bytes of a part of the header. -/
def headerPart (bytes : List UInt8) (start stop : Nat) : List UInt8 :=
  (bytes.drop start).take (stop - start)

def decodeHeader (bytes : List UInt8) : Except BackupError (BackupHeader × List UInt8) := do
  let headerBytes ← orFail
    (if bytes.length < Backup.HEADER_LEN then none else some (bytes.take Backup.HEADER_LEN))
    "バックアップが途中で切れています"
  Fallible.refuseIf (headerPart headerBytes 0 8 ≠ Backup.MAGIC)
    (.failed "PeerCove バックアップではありません")
  let version := littleValue (headerPart headerBytes 8 10)
  Fallible.refuseIf (version ≠ Backup.FORMAT_VERSION)
    (.failed s!"未対応のバックアップ形式です (version={version})")
  return ({ memoryKib := littleValue (headerPart headerBytes 10 14)
            iterations := littleValue (headerPart headerBytes 14 18)
            parallelism := littleValue (headerPart headerBytes 18 22)
            salt := headerPart headerBytes 22 38
            nonce := headerPart headerBytes 38 62
            ciphertextLen := littleValue (headerPart headerBytes 62 70) }, headerBytes)

def validatePassphrase (passphrase : String) : Except BackupError Unit :=
  Fallible.refuseIf (Text.charCount passphrase < 12)
    (.failed "パスフレーズは12文字以上にしてください")

/-! ### Creating a backup -/

/-- The machine a backup is made on. -/
structure BackupSource where
  /-- What is read from a path. -/
  read : String → Option (List UInt8)
  /-- `snapshot_db_bytes`. -/
  snapshot : String → Option (List UInt8)
  /-- `std::env::consts::OS` -/
  os : String
  nowMs : Nat
  salt : List UInt8
  nonce : List UInt8
  saltLen : salt.length = Backup.SALT_LEN
  nonceLen : nonce.length = Backup.NONCE_LEN

def PRIVATE_NAME : String := "secrets/private.key"

def pskName (index : Nat) : String :=
  s!"secrets/peer-{index}.psk"

section

variable {δ κ : Type} (tools : BackupTools δ κ) (source : BackupSource)

/-- `add_file` reads what the backup cannot do without. -/
def addFile (logical path : String) (secret : Bool) : Except BackupError BackupFile := do
  let bytes ← orFail (source.read path) s!"必要なファイル {path} を読めません"
  return { path := logical, contentBase64 := tools.encode bytes, secret := secret }

/-- The PSK files, each of a peer that has its table in the document. -/
def addPresharedKeys (tables : Option Nat) : Nat → List (Option String) →
    Except BackupError (List BackupFile)
  | _, [] => .ok []
  | index, none :: rest => addPresharedKeys tables (index + 1) rest
  | index, some path :: rest => do
      let file ← addFile tools source (pskName index) path true
      Fallible.refuseIf (tables.any (fun count => index < count) = false)
        (.failed s!"peer[{index}] の設定をバックアップ用に変換できません")
      let files ← addPresharedKeys tables (index + 1) rest
      return file :: files

/-- The tables of the peers with a PSK get the names of the files in the backup. -/
def renamePresharedKeys (toml : TomlTools δ) : Nat → List (Option String) → δ → δ
  | _, [], document => document
  | index, none :: rest, document => renamePresharedKeys toml (index + 1) rest document
  | index, some _ :: rest, document =>
      renamePresharedKeys toml (index + 1) rest
        (toml.setPresharedKeyFile index (pskName index) document)

def backupRole (configPath : String) : Except BackupError BackupRole :=
  if UnixPath.fileName configPath = some HOST_FILE then .ok .host
  else if UnixPath.fileName configPath = some MEMBER_FILE then .ok .member
  else .error (.failed "host.toml または member.toml を選択してください")

def BackupRole.configFile : BackupRole → String
  | .host => HOST_FILE
  | .member => MEMBER_FILE

/-- The groups file, if there is one. -/
def addGroups (configPath configFile : String) : List BackupFile :=
  match source.read (UnixPath.withExtension configPath "groups.json") with
  | none => []
  | some bytes => [{ path := UnixPath.withExtension configFile "groups.json"
                     contentBase64 := tools.encode bytes, secret := false }]

/-- The memo database of a host, if it is asked for and there is one. -/
def addMemos (role : BackupRole) (includeMemos : Bool) (configPath configFile : String) :
    Except BackupError (List BackupFile) :=
  let memosPath := UnixPath.withExtension configPath "memos.db"
  if role = .host ∧ includeMemos = true ∧ (source.read memosPath).isSome then do
    let bytes ← orFail (source.snapshot memosPath) "共有メモデータベースの取得に失敗しました"
    return [{ path := UnixPath.withExtension configFile "memos.db"
              contentBase64 := tools.encode bytes, secret := false }]
  else .ok []

/-- What `create` lists as contents. -/
def backupCategories (config : Config) (groups memos : List BackupFile) : List String :=
  ["network_config", "keys"] ++ (if groups = [] then [] else ["groups"]) ++
    (if memos = [] then [] else ["memos"]) ++
    (if config.dnsRecords = [] then [] else ["dns"]) ++
    (if config.acl.deny = [] ∧ config.acl.default = .allow ∧ config.acl.groups = [] ∧
        config.acl.rules = [] then [] else ["acl"]) ++
    (if config.peers.any (fun peer => peer.inviteId.isSome) then ["invite_metadata"] else [])

/-- The document with the names that the secrets have in a backup. -/
def relocate (toml : TomlTools δ) (loaded : FileConfig) (document : δ) : Except BackupError δ :=
  match toml.setPrivateKeyFile PRIVATE_NAME document with
  | none => .error .panicked
  | some document =>
      .ok (match toml.peerTables document with
        | none => document
        | some _ => renamePresharedKeys toml 0 loaded.presharedKeyFiles document)

/-- The part of `create` before the encryption. -/
def collect (configPath : String) (includeMemos : Bool) : Except BackupError BackupPayload := do
  let text ← orFail (source.read configPath) "設定ファイルを読み込めません"
  let loaded ← orFail (tools.toml.load (UnixPath.parent configPath) text)
    "設定ファイルを読み込めません"
  let role ← backupRole configPath
  let document ← orFail (tools.toml.parse text) "設定ファイルを解析できません"
  let privateKey ← addFile tools source PRIVATE_NAME loaded.privateKeyFile true
  let relocated ← relocate tools.toml loaded document
  let presharedKeys ← addPresharedKeys tools source (tools.toml.peerTables document) 0
    loaded.presharedKeyFiles
  let config : BackupFile := { path := role.configFile
                               contentBase64 := tools.encode (tools.toml.print relocated)
                               secret := true }
  let groups := addGroups tools source configPath role.configFile
  let memos ← addMemos tools source role includeMemos configPath role.configFile
  return {
    preview := {
      networkName := loaded.config.networkName
      role := role
      sourceOs := source.os
      createdAtUnixMs := source.nowMs
      categories := backupCategories loaded.config groups memos
      configFile := role.configFile
      memberKeyRotationRecommended := role = .member }
    files := privateKey :: presharedKeys ++ config :: groups ++ memos }

/-! ### Encryption -/

def deriveKey (passphrase : String) (header : BackupHeader) : Except BackupError κ := do
  Fallible.refuseIf
    (header.memoryKib > 256 * 1024 ∨ header.iterations > 10 ∨ header.parallelism > 8)
    (.failed "バックアップの鍵導出パラメーターが許容範囲外です")
  orFail (tools.argon2 header.memoryKib header.iterations header.parallelism
    (Text.utf8Bytes passphrase) header.salt) "パスフレーズから鍵を作成できません"

/-- The header of a backup with a text of this length. -/
def backupHeader (length : Nat) : BackupHeader where
  memoryKib := Backup.MEMORY_KIB
  iterations := Backup.ITERATIONS
  parallelism := Backup.PARALLELISM
  salt := source.salt
  nonce := source.nonce
  ciphertextLen := length + Backup.TAG_LEN

/-- The part of `create` that makes the bytes of the file. -/
def sealPayload (passphrase : String) (payload : BackupPayload) :
    Except BackupError (List UInt8) := do
  let plaintext := payload.toVec
  let header := backupHeader source plaintext.length
  let key ← deriveKey tools passphrase header
  let ciphertext ← orFail (tools.encrypt key header.nonce (encodeHeader header) plaintext)
    "バックアップを暗号化できません"
  return encodeHeader header ++ ciphertext

/-- `create`: the preview, and the file it writes. -/
def createBackup (configPath passphrase : String) (includeMemos : Bool) :
    Except BackupError (BackupPreview × List UInt8) := do
  validatePassphrase passphrase
  let payload ← collect tools source configPath includeMemos
  let output ← sealPayload tools source passphrase payload
  return (payload.preview, output)

/-- `decrypt`. -/
def decryptBackup (file : List UInt8) (passphrase : String) : Except BackupError BackupPayload := do
  validatePassphrase passphrase
  Fallible.refuseIf (file.length > Backup.MAX_BACKUP_BYTES) (.failed "バックアップが大きすぎます")
  let (header, headerBytes) ← decodeHeader file
  let ciphertext := file.drop Backup.HEADER_LEN
  Fallible.refuseIf (ciphertext.length ≠ header.ciphertextLen)
    (.failed "バックアップが途中で切れているか、形式が不正です")
  let key ← deriveKey tools passphrase header
  let plaintext ← orFail (tools.decrypt key header.nonce headerBytes ciphertext)
    "パスフレーズが違うか、バックアップが改ざんされています"
  orFail (tools.fromSlice plaintext) "バックアップ内容を解析できません"

def inspectBackup (file : List UInt8) (passphrase : String) : Except BackupError BackupPreview :=
  (decryptBackup tools file passphrase).map BackupPayload.preview

end

end PeerCove
