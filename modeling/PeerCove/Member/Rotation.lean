/-
Module: PeerCove.Member.Rotation
Layer: Member
Purpose: The member's side of a device key rotation: what the supervisor does every few seconds, and
  its link to the control connection.
Trusted boundary: the public key of a private key is a parameter; clocks and statistics are inputs
Main exports: MemberLink, Rotation, Device, Device.tick, Device.restart, Device.reboot
-/
import PeerCove.Ops.KeyFiles

namespace PeerCove

/-- `DEAD_LINK_TIMEOUT`, in nanoseconds. -/
def DEAD_LINK_TIMEOUT : Nat := 45 * 1000000000

/-! ### The link to the control connection -/

/-- `ControlMessage::RotateKeyResult`. -/
structure RotateReply where
  accepted : Bool
  message : String
deriving Repr, DecidableEq

/-- The sending end a link holds: none while disconnected, and a closed one where the task of the
connection was stopped together with its tunnel. -/
inductive Outbox where
  | absent
  | closed
  | opened
deriving Repr, DecidableEq

/-- The part of `MemberLinkState` that key rotation uses.  Sessions are numbered on when the daemon
is started again, so that a number names one connection. -/
structure MemberLink where
  sessionNumber : Nat := 0
  outbox : Outbox := .absent
  rotateResult : Option RotateReply := none
deriving DecidableEq

namespace MemberLink

/-- `MemberLink::session`. -/
def session (link : MemberLink) : Option Nat :=
  if link.outbox = .absent then none else some link.sessionNumber

def attach (link : MemberLink) : MemberLink where
  sessionNumber := link.sessionNumber + 1
  outbox := .opened
  rotateResult := none

def detach (link : MemberLink) : MemberLink :=
  { link with outbox := .absent }

def putRotateResult (reply : RotateReply) (link : MemberLink) : MemberLink :=
  { link with rotateResult := some reply }

/-- The task of the connection is stopped. -/
def abort (link : MemberLink) : MemberLink :=
  { link with outbox := if link.outbox = .absent then .absent else .closed }

end MemberLink

/-! ### The state of the supervisor -/

/-- `Rotation`.  The files and the manual request it refers to outlive it. -/
structure Rotation where
  onPending : Bool
  attemptedSession : Option Nat := none
  /-- When the host was last heard, and the byte counter then. -/
  lastRx : Nat × Nat
deriving DecidableEq

/-- A running tunnel. -/
structure Tunnel (κ : Type) where
  key : κ
  rxBytes : Nat := 0
  rotation : Rotation

structure RestartWith where
  usePending : Bool
deriving Repr, DecidableEq

/-- A member's device. -/
structure Device (κ : Type) where
  files : KeyFiles κ
  manual : Bool := false
  link : MemberLink := {}
  tunnel : Option (Tunnel κ) := none
  /-- The supervisor has left its loop for a restart. -/
  leaving : Option RestartWith := none

/-- What one tick reads: the clock, the byte counter of the host's entry in the statistics, and
what comes of the files it accesses. -/
structure TickEnv (κ : Type) where
  io : FileOutcomes κ
  now : Nat
  stats : Option Nat

def TickEnv.rx {κ : Type} (env : TickEnv κ) : Nat := env.stats.getD 0

section

variable {κ : Type} (publicKey : κ → PublicKey) (env : TickEnv κ)

/-- `Rotation::new`. -/
def Rotation.new (readable : Bool) (files : KeyFiles κ) (currentKey : κ) (now : Nat) : Rotation where
  onPending := (loadPending readable files).any (fun key => publicKey key = publicKey currentKey)
  lastRx := (now, 0)

/-- A changed byte counter means that the host is heard. -/
def Rotation.observe (rotation : Rotation) : Rotation :=
  if env.rx ≠ rotation.lastRx.2 then { rotation with lastRx := (env.now, env.rx) } else rotation

def Rotation.linkDead (rotation : Rotation) : Bool :=
  DEAD_LINK_TIMEOUT ≤ env.now - rotation.lastRx.1

namespace Device

/-- Step 1 of a tick: the host's answer. -/
def collect (reply : RotateReply) (device : Device κ) : Device κ :=
  if reply.accepted then
    match commitPending env.io device.files with
    | (true, files) =>
        { device with files := files, manual := false, leaving := some { usePending := false } }
    | (false, files) => { device with files := files }
  else
    { device with files := discardPending env.io device.files, manual := false }

/-- Step 2: the tunnel runs with the new key. -/
def tryPending (tunnel : Tunnel κ) (device : Device κ) : Device κ :=
  if 0 < env.rx then
    match commitPending env.io device.files with
    | (true, files) =>
        { device with
          files := files
          tunnel := some { tunnel with rotation := { tunnel.rotation with onPending := false } } }
    | (false, files) => { device with files := files }
  else if tunnel.rotation.linkDead env then
    { device with leaving := some { usePending := false } }
  else
    device

/-- Step 4: one request in each session.  The result carries the key that is sent to the host. -/
def request (tunnel : Tunnel κ) (device : Device κ) : Device κ × Option PublicKey :=
  if device.files.keySource = some .selfGenerated ∧ ¬ device.manual then
    (device, none)
  else match device.link.session with
    | none => (device, none)
    | some session =>
        if tunnel.rotation.attemptedSession = some session then
          (device, none)
        else match ensurePending env.io device.files with
          | (none, files) => ({ device with files := files }, none)
          | (some newKey, files) =>
              if device.link.outbox = .opened then
                ({ device with
                    files := files
                    tunnel := some { tunnel with
                      rotation := { tunnel.rotation with attemptedSession := some session } } },
                  some (publicKey newKey))
              else
                ({ device with files := files }, none)

/-- `Rotation::tick`, for a device whose tunnel runs and whose settings name the host. -/
def tick (tunnel : Tunnel κ) (device : Device κ) : Device κ × Option PublicKey :=
  let tunnel := { tunnel with rotation := tunnel.rotation.observe env }
  let device := { device with tunnel := some tunnel }
  match device.link.rotateResult with
  | some reply =>
      (collect env reply { device with link := { device.link with rotateResult := none } }, none)
  | none =>
      if tunnel.rotation.onPending then
        (tryPending env tunnel device, none)
      -- the settled key reaches nobody, so the new one is tried
      else if tunnel.rotation.linkDead env ∧
          (loadPending env.io.pendingReadable device.files).isSome then
        ({ device with leaving := some { usePending := true } }, none)
      else
        request publicKey env tunnel device

/-- `restart_in_place` and the supervisor that follows.  Without a key the tunnel stays down. -/
def restart (readable usePending : Bool) (now : Nat) (device : Device κ) : Device κ :=
  let key := if usePending then loadPending readable device.files else device.files.current
  { device with
    link := device.link.abort
    leaving := none
    tunnel := key.map (fun key =>
      { key := key, rotation := Rotation.new publicKey readable device.files key now }) }

/-- The daemon ends in any way and is started again: only the files are left. -/
def reboot (readable : Bool) (now : Nat) (device : Device κ) : Device κ :=
  restart publicKey readable false now
    { files := device.files, link := { sessionNumber := device.link.sessionNumber } }

end Device

end

end PeerCove
