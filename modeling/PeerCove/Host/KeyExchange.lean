/-
Module: PeerCove.Host.KeyExchange
Layer: Host
Purpose: A key rotation between a member and the host: the requests and answers on the control
  connections, the host's handling of a request, and everything that may happen in between.
Trusted boundary: the public key of a private key is a parameter, generated keys are new, and a
  tunnel carries bytes only while the host's interface knows its key
Main exports: applyRotateKey, KeyExchange, KeyEvent, KeyExchange.step
-/
import PeerCove.Member.Rotation
import PeerCove.Ops.Peers
import PeerCove.Library.Runs
import Mathlib.Logic.Function.Basic

namespace PeerCove

/-- The keys registered under a member's address. -/
def registeredKeys (config : Config) (memberIp : Ipv4Addr) : List PublicKey :=
  (config.peers.filter (Selector.ip memberIp).matches).map PeerConfig.publicKey

/-- Whether `rotate_peer_key` gets to read, lock and write the file, or fails in one of these. -/
inductive HostOutcome where
  | ran
  | failed (message : String)
deriving Repr, DecidableEq

/-- `HostRequests::apply_rotate_key`. -/
def applyRotateKey (outcome : HostOutcome) (config : Config) (memberIp : Ipv4Addr)
    (newKey hostPublicKey : PublicKey) : RotateReply × Config :=
  match outcome with
  | .failed message => ({ accepted := false, message := message }, config)
  | .ran => match rotatePeerKey config memberIp newKey hostPublicKey with
    | .ok (.applied _, written) =>
        ({ accepted := true
           message := "更新を受け付けました(数秒で新しい鍵に切り替わります)" }, written)
    | .ok (.unchanged, written) => ({ accepted := true, message := "既に更新済みです" }, written)
    | .error message => ({ accepted := false, message := message }, config)

/-- What is under way on one control connection, in each direction in order.  Whatever is never
taken from it is lost. -/
structure KeyChannel where
  requests : List PublicKey := []
  replies : List RotateReply := []

/-- A member and its host. -/
structure KeyExchange (κ : Type) where
  device : Device κ
  config : Config
  /-- The member's keys that the host's interface runs with. -/
  installed : List PublicKey
  /-- The control connections, by session. -/
  channels : Nat → KeyChannel
  /-- Every public key that was ever in use. -/
  issued : List PublicKey

inductive KeyEvent (κ : Type) where
  | tick (env : TickEnv κ)
  | restart (readable usePending : Bool) (now : Nat)
  | reboot (readable : Bool) (now : Nat)
  /-- The user asks for a rotation. -/
  | ask
  /-- The tunnel receives bytes from the host. -/
  | receive (bytes : Nat)
  | connect
  | disconnect
  /-- An answer arrives at the member. -/
  | deliver
  /-- The host handles the next request of a connection. -/
  | handle (session : Nat) (outcome : HostOutcome)
  /-- The host passes over it: the member is isolated, or the host does not know the message. -/
  | skip (session : Nat)
  /-- The host's interface takes up what is in `host.toml`. -/
  | reload
  /-- Another operation writes `host.toml` and leaves the member's key. -/
  | edit (config : Config)

namespace KeyExchange

variable {κ : Type} (publicKey : κ → PublicKey) (memberIp : Ipv4Addr) (hostPublicKey : PublicKey)

/-- The connection of the member's latest session. -/
def latest (state : KeyExchange κ) : KeyChannel :=
  state.channels state.device.link.sessionNumber

/-- A request goes out on the latest connection. -/
def post (sent : Option PublicKey) (state : KeyExchange κ) : KeyExchange κ :=
  match sent with
  | none => state
  | some key =>
      { state with
        channels := Function.update state.channels state.device.link.sessionNumber
          { state.latest with requests := state.latest.requests ++ [key] } }

/-- One event, where it can happen. -/
def step (event : KeyEvent κ) (state : KeyExchange κ) : Option (KeyExchange κ) :=
  match event with
  | .tick env => match state.device.tunnel with
    | none => none
    | some tunnel =>
        if state.device.leaving = none ∧ (env.stats = none ∨ env.stats = some tunnel.rxBytes) ∧
            publicKey env.io.generated ∉ state.issued then
          let (device, sent) := state.device.tick publicKey env tunnel
          some (post sent { state with
            device := device
            issued := publicKey env.io.generated :: state.issued })
        else
          none
  | .restart readable usePending now =>
      -- a changed setting restarts the tunnel too, always with the settled key
      if usePending = false ∨ state.device.leaving = some { usePending := usePending } then
        some { state with device := state.device.restart publicKey readable usePending now }
      else
        none
  | .reboot readable now =>
      some { state with device := state.device.reboot publicKey readable now }
  | .ask => some { state with device := { state.device with manual := true } }
  | .receive bytes => match state.device.tunnel with
    | none => none
    | some tunnel =>
        if publicKey tunnel.key ∈ state.installed then
          some { state with
            device := { state.device with
              tunnel := some { tunnel with rxBytes := tunnel.rxBytes + bytes } } }
        else
          none
  | .connect =>
      if state.device.link.outbox = .opened then
        none
      else
        some { state with
          device := { state.device with link := state.device.link.attach }
          channels := Function.update state.channels
            state.device.link.attach.sessionNumber {} }
  | .disconnect => some { state with
      device := { state.device with link := state.device.link.detach } }
  | .deliver => match state.device.link.outbox, state.latest.replies with
    | .opened, reply :: rest => some { state with
        device := { state.device with link := state.device.link.putRotateResult reply }
        channels := Function.update state.channels state.device.link.sessionNumber
          { state.latest with replies := rest } }
    | _, _ => none
  | .handle session outcome => match state.channels session with
    | { requests := newKey :: rest, replies := replies } =>
        let (reply, config) :=
          applyRotateKey outcome state.config memberIp newKey hostPublicKey
        some { state with
          config := config
          channels := Function.update state.channels session
            { requests := rest, replies := replies ++ [reply] } }
    | { requests := [], replies := _ } => none
  | .skip session => match state.channels session with
    | { requests := _ :: rest, replies := replies } => some { state with
        channels := Function.update state.channels session
          { requests := rest, replies := replies } }
    | { requests := [], replies := _ } => none
  | .reload => some { state with installed := registeredKeys state.config memberIp }
  | .edit config =>
      if registeredKeys config memberIp = registeredKeys state.config memberIp then
        some { state with config := config }
      else
        none

/-- A member that has just joined: the host knows the key of its invitation. -/
structure Joined (state : KeyExchange κ) : Prop where
  current : ∃ key, state.device.files.current = some key ∧
    registeredKeys state.config memberIp = [publicKey key]
  pending : state.device.files.pending = none
  offline : state.device.link.outbox = .absent
  quiet : state.device.link.rotateResult = none
  down : state.device.tunnel = none
  empty : ∀ session, state.channels session = {}
  issued : ∀ key ∈ registeredKeys state.config memberIp ++ state.installed, key ∈ state.issued

end KeyExchange

end PeerCove
