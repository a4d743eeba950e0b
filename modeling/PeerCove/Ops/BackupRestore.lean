/-
Module: PeerCove.Ops.BackupRestore
Layer: Operations
Purpose: `restore` of a backup on a tree of files, where one operation of the file system may fail,
  with every path it reads, writes, moves or removes.
Trusted boundary: the libraries of backups; paths of Unix; a failed operation leaves a torn file, or
  part of a directory it removes, and is otherwise without effect
Main exports: RestoreCall, FileFault, RestoreWorld, Restoring, restoreToStage, restorePayload,
  restoreBackup
-/
import PeerCove.Library.Stateful
import PeerCove.Ops.Backup

namespace PeerCove

open FileTree Stateful

inductive RestoreMode where
  | new
  | replace
deriving Repr, DecidableEq

/-- The calls of `restore` that change or read files. -/
inductive RestoreCall where
  | createNetworks
  | removeStale
  | createStage
  /-- The parent and the content of a file of the payload, by its place. -/
  | createParent (place : Nat)
  | writeFile (place : Nat)
  | readConfig
  | createConfigParent
  | writeConfig
  | loadConfig
  /-- The stage is removed after an error, wherever that came from. -/
  | dropStage
  /-- The target is moved away, the stage takes its place, or else the target is moved back. -/
  | retire
  | place
  | putBack
  | dropRetired
deriving Repr, DecidableEq

/-- The operation that fails. -/
structure FileFault where
  call : RestoreCall
  /-- What a file has in it whose writing failed, if anything has changed. -/
  torn : Option (List UInt8)
  /-- What a removal has left. -/
  spared : Path → Bool

inductive FileAccess where
  | read (path : Path)
  | write (path : Path)
  | createDirs (path : Path)
  | remove (path : Path)
  | rename (source dest : Path)
deriving DecidableEq

structure RestoreWorld where
  tree : DirTree (List UInt8)
  accessed : List FileAccess := []

abbrev Restoring (α : Type) : Type := Stateful RestoreWorld BackupError α

/-- An operation of the file system: what it does, unless it is the one that fails. -/
def attempt (fault : Option FileFault) (call : RestoreCall) (access : FileAccess)
    (effect : DirTree (List UInt8) → Option (DirTree (List UInt8)))
    (damage : FileFault → DirTree (List UInt8) → DirTree (List UInt8)) : Restoring Unit :=
  fun world =>
    let accessed := world.accessed ++ [access]
    match fault.filter (fun failing => failing.call = call) with
    | some failing => (.error .io, { tree := damage failing world.tree, accessed := accessed })
    | none =>
        match effect world.tree with
        | some tree => (.ok (), { tree := tree, accessed := accessed })
        | none => (.error .io, { world with accessed := accessed })

section

variable (fault : Option FileFault)

def createDirectories (call : RestoreCall) (path : Path) : Restoring Unit :=
  attempt fault call (.createDirs path) (DirTree.createDirs path) (fun _ tree => tree)

/-- `remove_dir_all`. -/
def removeDirectory (call : RestoreCall) (path : Path) : Restoring Unit :=
  attempt fault call (.remove path)
    (fun tree => if tree.isDirectory path then some (tree.removeAll path) else none)
    (fun failing => DirTree.removeSome failing.spared path)

def moveDirectory (call : RestoreCall) (source dest : Path) : Restoring Unit :=
  attempt fault call (.rename source dest) (DirTree.rename source dest) (fun _ tree => tree)

/-- Write to the file that a path leads to; a failure may leave it torn. -/
def writeContent (call : RestoreCall) (opens : Bool) (path : Path) (content : List UInt8) :
    Restoring Unit :=
  attempt fault call (.write path)
    (fun tree => if opens then tree.write path content else none)
    (fun failing tree =>
      if opens then (failing.torn.bind (fun torn => tree.write path torn)).getD tree else tree)

/-- The bytes of the file that a path leads to. -/
def readContent (call : RestoreCall) (stage : Path) (text : String) : Restoring (List UInt8) :=
  fun world =>
    let path := UnixPath.locate stage text
    let world' := { world with accessed := world.accessed ++ [.read path] }
    if fault.any (fun failing => failing.call = call) then (.error .io, world')
    else
      let start := if UnixPath.isAbsolute text then [] else stage
      match (walk world.tree start (UnixPath.components text)).bind world.tree.contents with
      | some bytes =>
          if UnixPath.opensFile text then (.ok bytes, world') else (.error .io, world')
      | none => (.error .io, world')

end

/-! ### The stage -/

/-- The names that a payload may have, beside its `config_file`. -/
def validBackupName (allowedConfig path : String) : Bool :=
  (path = allowedConfig ||
      path = UnixPath.withExtension allowedConfig "groups.json" ||
      path = UnixPath.withExtension allowedConfig "memos.db" ||
      (Text.startsWith path "secrets/" && '/' ∉ path.toList.drop 8)) &&
    !UnixPath.hasDots path && !UnixPath.isAbsolute path

section

variable {δ κ : Type} (tools : BackupTools δ κ) (fault : Option FileFault)

/-- The files of the payload, in their order. -/
def stageFiles (allowedConfig : String) (stage : Path) :
    Nat → List BackupFile → Restoring Unit
  | _, [] => pure ()
  | place, file :: rest => do
      refuse (validBackupName allowedConfig file.path = false)
        (.failed "バックアップに不正なファイル名が含まれています")
      let bytes ← expect (tools.decode file.contentBase64)
        (.failed "バックアップ内容が壊れています")
      let output := UnixPath.locate stage file.path
      createDirectories fault (.createParent place) output.dropLast
      writeContent fault (.writeFile place) (UnixPath.opensFile file.path) output bytes
      stageFiles allowedConfig stage (place + 1) rest

/-- The configuration gets the name of its new network, and is loaded. -/
def rewriteConfig (allowedConfig : String) (stage : Path) (slug : String) : Restoring Unit := do
  let output := UnixPath.locate stage allowedConfig
  let text ← readContent fault .readConfig stage allowedConfig
  let document ← expect (tools.toml.parse text) .io
  let named ← expect (tools.toml.setNetworkName slug document) .panicked
  createDirectories fault .createConfigParent output.dropLast
  writeContent fault .writeConfig (UnixPath.opensFile allowedConfig) output
    (tools.toml.print named)
  let written ← readContent fault .loadConfig stage allowedConfig
  refuse ((tools.toml.load "" written).isNone) (.failed "復元内容の検証に失敗しました")

def restoreToStage (payload : BackupPayload) (stage : Path) (slug : String) : Restoring Unit := do
  stageFiles tools fault payload.preview.configFile stage 0 payload.files
  rewriteConfig tools fault payload.preview.configFile stage slug

/-! ### The swap -/

/-- Do something after an error; a panic goes on at once. -/
def onError {α : Type} (body : Restoring α) (cleanup : BackupError → Restoring α) : Restoring α :=
  fun world =>
    match body world with
    | (.ok value, after) => (.ok value, after)
    | (.error .panicked, after) => (.error .panicked, after)
    | (.error error, after) => cleanup error after

/-- `let _ =` of an operation that may fail. -/
def tolerate (body : Restoring Unit) : Restoring Unit :=
  fun world => (.ok (), (body world).2)

def pathExists (path : Path) : Restoring Bool :=
  query (fun world => (world.tree.node path).isSome)

/-- Do something if a path is there. -/
def ifThere (path : Path) (body : Restoring Unit) : Restoring Unit :=
  fun world => if (world.tree.node path).isSome then body world else (.ok (), world)

/-- Where `restore` works: `networks_dir(base)`, its process, and the two times it asks for. -/
structure RestorePlace where
  networks : Path
  pid : Nat
  stagedMs : Nat
  retiredMs : Nat

def RestorePlace.target (location : RestorePlace) (slug : String) : Path :=
  location.networks ++ [slug]

def RestorePlace.stage (location : RestorePlace) : Path :=
  location.networks ++ [s!".restore-{location.pid}-{location.stagedMs}"]

def RestorePlace.old (location : RestorePlace) : Path :=
  location.networks ++ [s!".replace-old-{location.pid}-{location.retiredMs}"]

/-- The target could not be moved away. -/
def giveUpRetiring (location : RestorePlace) : Restoring Unit := do
  tolerate (removeDirectory fault .dropStage location.stage)
  lift (.error (.failed "既存ネットワークを退避できません"))

/-- The stage could not take its place: a target that was moved away comes back. -/
def giveUpPlacing (location : RestorePlace) (slug : String) : Restoring Unit := do
  tolerate (removeDirectory fault .dropStage location.stage)
  ifThere location.old
    (tolerate (moveDirectory fault .putBack location.old (location.target slug)))
  lift (.error (.failed "復元したネットワークを配置できません"))

/-- The stage takes the place of the target. -/
def swapIn (location : RestorePlace) (slug : String) : Restoring Unit := do
  let target := location.target slug
  ifThere target
    (onError (moveDirectory fault .retire target location.old)
      (fun _ => giveUpRetiring fault location))
  onError (moveDirectory fault .place location.stage target)
    (fun _ => giveUpPlacing fault location slug)
  ifThere location.old (tolerate (removeDirectory fault .dropRetired location.old))

/-- `restore` of a payload. -/
def restorePayload (location : RestorePlace) (payload : BackupPayload) (slug : String)
    (mode : RestoreMode) : Restoring (BackupPreview × Path) := do
  let target := location.target slug
  let there ← pathExists target
  refuse (there = true ∧ mode = .new)
    (.failed "同じ名前のネットワークが既にあります。別名か置換を選択してください")
  let host ← pathExists (target ++ [HOST_FILE])
  let member ← pathExists (target ++ [MEMBER_FILE])
  refuse (mode = .replace ∧ host = false ∧ member = false)
    (.failed "置換先は PeerCove のネットワークではありません")
  createDirectories fault .createNetworks location.networks
  ifThere location.stage (removeDirectory fault .removeStale location.stage)
  createDirectories fault .createStage location.stage
  onError (restoreToStage tools fault payload location.stage slug) (fun error => do
    tolerate (removeDirectory fault .dropStage location.stage)
    lift (.error error))
  swapIn fault location slug
  return (payload.preview, UnixPath.locate target payload.preview.configFile)

/-- `restore`. -/
def restoreBackup (location : RestorePlace) (file : List UInt8) (passphrase slug : String)
    (mode : RestoreMode) : Restoring (BackupPreview × Path) := do
  refuse (Names.isDnsLabel slug = false) (.failed "復元先の名前が不正です")
  let payload ← lift (decryptBackup tools file passphrase)
  restorePayload tools fault location payload slug mode

end

end PeerCove
