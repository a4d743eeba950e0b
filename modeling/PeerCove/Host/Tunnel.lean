/-
Module: PeerCove.Host.Tunnel
Layer: Host
Purpose: The host's tunnel as its commands drive the backend: `bring_up`, the ticks of `supervise` with
  the isolation and `sync_peers`, `restart_in_place` and the teardown.
Trusted boundary: an operation of the backend succeeds or fails as a whole; a `sync_isolation` or a
  `down` that fails has released every isolated address (as in the Linux backend), any other
  operation that fails changes nothing; maps are walked in the order of insertion
Main exports: PeerSpec, TunnelBackend, BackendOp, Supervisor, superviseTick, syncPeers, HostTunnel,
  HostTunnel.perform
-/
import PeerCove.Core.Validate
import PeerCove.Library.Console
import PeerCove.Library.SortDedup

namespace PeerCove

/-! ### The backend -/

structure PeerSpec where
  publicKey : PublicKey
  endpoint : Option SocketAddr
  allowedIps : List Ipv4Net
  persistentKeepalive : Option UInt16
  presharedKey : Option PublicKey
deriving DecidableEq

/-- What the interface holds. -/
structure TunnelBackend where
  peers : List PeerSpec := []
  isolated : List Ipv4Addr := []
deriving DecidableEq

/-- The operations of `WgBackend` that concern peers and their isolation. -/
inductive BackendOp where
  | up (peers : List PeerSpec)
  | down
  | addPeer (spec : PeerSpec)
  | removePeer (key : PublicKey)
  | syncIsolation (isolated : List Ipv4Addr)
deriving DecidableEq

/-- `add_peer` replaces a peer that is there. -/
def upsertPeer (spec : PeerSpec) (peers : List PeerSpec) : List PeerSpec :=
  peers.filter (fun other => other.publicKey ≠ spec.publicKey) ++ [spec]

def BackendOp.effect : BackendOp → Bool → TunnelBackend → TunnelBackend
  | .up peers, true, _ => { peers := peers }
  | .down, true, _ => {}
  | .addPeer spec, true, backend => { backend with peers := upsertPeer spec backend.peers }
  | .removePeer key, true, backend =>
      { backend with peers := backend.peers.filter (fun other => other.publicKey ≠ key) }
  | .syncIsolation isolated, true, backend => { backend with isolated := isolated }
  | .down, false, backend => { backend with isolated := [] }
  | .syncIsolation _, false, backend => { backend with isolated := [] }
  | _, false, backend => backend

abbrev BackendSession := Console.Session TunnelBackend

/-- Which operations succeed, by their place in the call. -/
abbrev BackendWorks := Nat → BackendOp → Bool

/-! ### What a configuration asks for -/

/-- What is read from the key files: whether the host's key can be read, and the preshared key of a
peer. -/
structure TunnelSecrets where
  privateKey : Except String PublicKey
  presharedKey : PeerConfig → Except String (Option PublicKey)

/-- `build_peer_spec` for the host. -/
def buildPeerSpec (secrets : TunnelSecrets) (peer : PeerConfig) : Except String PeerSpec := do
  let presharedKey ← secrets.presharedKey peer
  return {
    publicKey := peer.publicKey
    endpoint := peer.endpoint
    allowedIps := peer.allowedIps ++ peer.subnets
    persistentKeepalive := peer.persistentKeepalive
    presharedKey := presharedKey }

structure TunnelSpec where
  listenPort : UInt16
  mtu : UInt16
  peers : List PeerSpec
deriving DecidableEq

/-- The peers that may connect. -/
def eligiblePeers (config : Config) (now : Nat) : List PeerConfig :=
  config.peers.filter (fun peer => peer.inviteAllowsConnection now)

/-- `build_spec` for the host. -/
def buildSpec (secrets : TunnelSecrets) (config : Config) (now : Nat) :
    Except String TunnelSpec := do
  let _ ← secrets.privateKey
  let peers ← (eligiblePeers config now).mapM (buildPeerSpec secrets)
  return {
    listenPort := config.interface.listenPort.getD DEFAULT_LISTEN_PORT
    mtu := config.interface.mtu
    peers := peers }

/-- `invite_isolation`. -/
def inviteIsolation (config : Config) : List Ipv4Addr :=
  sortDedup (fun one two => one.toNat ≤ two.toNat)
    ((config.peers.filter PeerConfig.inviteIsIsolated).filterMap PeerConfig.virtualIp)

/-- `detect_reconfig_restart` for the host. -/
def detectReconfigRestart (spec : TunnelSpec) (config : Config) : Bool :=
  config.interface.listenPort.getD DEFAULT_LISTEN_PORT ≠ spec.listenPort ||
    config.interface.mtu ≠ spec.mtu

/-! ### The supervisor -/

structure PeerFingerprint where
  ip : Ipv4Addr
  endpoint : Option SocketAddr
  allowedIps : List Ipv4Net
  keepalive : Option UInt16
  psk : Option PublicKey
deriving DecidableEq

/-- `PeerFingerprint::of`. -/
def PeerFingerprint.of (spec : PeerSpec) : PeerFingerprint where
  ip := (spec.allowedIps.head?.map Ipv4Net.addr).getD 0
  endpoint := spec.endpoint
  allowedIps := spec.allowedIps
  keepalive := spec.persistentKeepalive
  psk := spec.presharedKey

/-- What `supervise` remembers between two ticks. -/
structure Supervisor where
  known : List (PublicKey × PeerFingerprint) := []
  pendingRemoval : List PublicKey := []
  appliedIsolation : Option (List Ipv4Addr) := none
deriving DecidableEq

namespace Supervisor

def start (spec : TunnelSpec) : Supervisor where
  known := spec.peers.map (fun peer => (peer.publicKey, PeerFingerprint.of peer))

def fingerprint (run : Supervisor) (key : PublicKey) : Option PeerFingerprint :=
  (run.known.find? (fun entry => entry.1 = key)).map Prod.snd

/-- `known.insert`. -/
def learn (key : PublicKey) (fingerprint : PeerFingerprint) (run : Supervisor) : Supervisor :=
  { run with known := run.known.filter (fun entry => entry.1 ≠ key) ++ [(key, fingerprint)] }

/-- `known.remove` and `pending_removal.remove`. -/
def forget (key : PublicKey) (run : Supervisor) : Supervisor :=
  { run with
    known := run.known.filter (fun entry => entry.1 ≠ key)
    pendingRemoval := run.pendingRemoval.filter (fun other => other ≠ key) }

end Supervisor

section
variable (works : BackendWorks)

/-- One operation of the backend. -/
def backendOp (op : BackendOp) (session : BackendSession) : Bool × BackendSession :=
  Console.issue BackendOp.effect works op session

/-- `apply_invite_isolation`. -/
def applyInviteIsolation (config : Config) (run : Supervisor) (session : BackendSession) :
    Bool × Supervisor × BackendSession :=
  if run.appliedIsolation = some (inviteIsolation config) then (true, run, session)
  else
    match backendOp works (.syncIsolation (inviteIsolation config)) session with
    | (true, session) =>
        (true, { run with appliedIsolation := some (inviteIsolation config) }, session)
    | (false, session) => (false, run, session)

/-- Peers taken off the interface one after the other. -/
def removePeers : List PublicKey → Supervisor → BackendSession → Supervisor × BackendSession
  | [], run, session => (run, session)
  | key :: rest, run, session =>
      match backendOp works (.removePeer key) session with
      | (true, session) => removePeers rest (run.forget key) session
      | (false, session) => removePeers rest run session

/-- The loop of `sync_peers` over the peers of the configuration. -/
def addPeers (secrets : TunnelSecrets) :
    List PeerConfig → Supervisor → BackendSession → Supervisor × BackendSession
  | [], run, session => (run, session)
  | peer :: rest, run, session =>
      match buildPeerSpec secrets peer with
      | .error _ => addPeers secrets rest run session
      | .ok spec =>
          match run.fingerprint peer.publicKey with
          | none =>
              match backendOp works (.addPeer spec) session with
              | (true, session) =>
                  addPeers secrets rest (run.learn peer.publicKey (PeerFingerprint.of spec))
                    session
              | (false, session) => addPeers secrets rest run session
          | some current =>
              if current = PeerFingerprint.of spec then addPeers secrets rest run session
              else
                match backendOp works (.removePeer peer.publicKey) session with
                | (false, session) => addPeers secrets rest run session
                | (true, session) =>
                    match backendOp works (.addPeer spec) session with
                    | (true, session) =>
                        addPeers secrets rest (run.learn peer.publicKey (PeerFingerprint.of spec))
                          session
                    | (false, session) => addPeers secrets rest run session

/-- Whether an address of the interface has passed to another key of the configuration. -/
def takenOver (config : Config) (now : Nat) (entry : PublicKey × PeerFingerprint) : Bool :=
  (eligiblePeers config now).all (fun peer => peer.publicKey ≠ entry.1) &&
    (eligiblePeers config now).any (fun peer => peer.virtualIp = some entry.2.ip)

/-- The two-stage removal of `sync_peers`: the first time a peer is told, the second time it goes. -/
def removalStages (gone : List PublicKey) (run : Supervisor) : List PublicKey × Supervisor :=
  (gone.filter (fun key => key ∈ run.pendingRemoval),
    { run with
      pendingRemoval := run.pendingRemoval ++ gone.filter (fun key => key ∉ run.pendingRemoval) })

/-- `sync_peers`. -/
def syncPeers (secrets : TunnelSecrets) (config : Config) (now : Nat) (run : Supervisor)
    (session : BackendSession) : Supervisor × BackendSession :=
  let rotated := (run.known.filter (takenOver config now)).map Prod.fst
  let swapped := removePeers works rotated run session
  let added := addPeers works secrets (eligiblePeers config now) swapped.1 swapped.2
  let gone := (added.1.known.map Prod.fst).filter (fun key =>
    (eligiblePeers config now).all (fun peer => peer.publicKey ≠ key))
  let staged := removalStages gone added.1
  removePeers works staged.1 staged.2 added.2

/-- What a tick of `supervise` does with a configuration it has read. -/
def superviseTick (secrets : TunnelSecrets) (config : Config) (now : Nat) (run : Supervisor)
    (session : BackendSession) : Supervisor × BackendSession :=
  match applyInviteIsolation works config run session with
  | (false, run, session) => (run, session)
  | (true, run, session) => syncPeers works secrets config now run session

end

/-! ### The life of the tunnel -/

inductive TunnelPhase where
  | stopped
  | supervising (spec : TunnelSpec) (run : Supervisor)
  | restarting (spec : TunnelSpec)
deriving DecidableEq

/-- The tunnel, and the configuration that was read last. -/
structure HostTunnel where
  phase : TunnelPhase := .stopped
  backend : TunnelBackend := {}
  loaded : Option Config := none
deriving DecidableEq

/-- What happens to the tunnel.  A configuration is `none` where it cannot be read. -/
inductive TunnelCall where
  | bringUp (config : Option Config) (secrets : TunnelSecrets) (now : Nat)
  | tick (config : Option Config) (secrets : TunnelSecrets) (now : Nat)
  | restart (config : Option Config) (secrets : TunnelSecrets) (now : Nat)
  | tearDown

/-- The tunnel after a call, and the interface after each operation. -/
structure TunnelPerformed where
  tunnel : HostTunnel
  moments : List TunnelBackend

namespace HostTunnel

variable (works : BackendWorks)

/-- The end of a call. -/
def settled (phase : TunnelPhase) (loaded : Option Config) (session : BackendSession) :
    TunnelPerformed where
  tunnel := { phase := phase, backend := session.state, loaded := loaded }
  moments := session.seen

/-- `tear_down`. -/
def tearDown (loaded : Option Config) (session : BackendSession) : TunnelPerformed :=
  settled .stopped loaded (backendOp works .down session).2

/-- `bring_up`. -/
def bringUp (secrets : TunnelSecrets) (config : Config) (now : Nat) (session : BackendSession) :
    TunnelPerformed :=
  match buildSpec secrets config now with
  | .error _ => settled .stopped (some config) session
  | .ok spec =>
      match backendOp works (.up spec.peers) session with
      | (false, session) => settled .stopped (some config) session
      | (true, session) =>
          match backendOp works (.syncIsolation (inviteIsolation config)) session with
          | (false, session) => tearDown works (some config) session
          | (true, session) =>
              settled (.supervising spec (Supervisor.start spec)) (some config) session

/-- `restart_in_place`, and the teardown that follows where it fails. -/
def restartInPlace (secrets : TunnelSecrets) (config : Config) (now : Nat)
    (session : BackendSession) : TunnelPerformed :=
  match buildSpec secrets config now with
  | .error _ => tearDown works (some config) session
  | .ok spec =>
      match backendOp works .down session with
      | (false, session) => tearDown works (some config) session
      | (true, session) =>
          match backendOp works (.up spec.peers) session with
          | (false, session) => tearDown works (some config) session
          | (true, session) =>
              settled (.supervising spec (Supervisor.start spec)) (some config) session

/-- A call in the phase it belongs to, on a configuration that is valid. -/
def perform (call : TunnelCall) (tunnel : HostTunnel) : Option TunnelPerformed :=
  let session : BackendSession := { state := tunnel.backend }
  match call, tunnel.phase with
  | .bringUp none _ _, .stopped => some (settled .stopped tunnel.loaded session)
  | .bringUp (some config) secrets now, .stopped =>
      match config.validate with
      | .error _ => none
      | .ok _ => some (bringUp works secrets config now session)
  | .tick none _ _, .supervising spec run =>
      some (settled (.supervising spec run) tunnel.loaded session)
  | .tick (some config) secrets now, .supervising spec run =>
      match config.validate with
      | .error _ => none
      | .ok _ =>
          if detectReconfigRestart spec config then
            some (settled (.restarting spec) (some config) session)
          else
            let done := superviseTick works secrets config now run session
            some (settled (.supervising spec done.1) (some config) done.2)
  | .restart none _ _, .restarting _ => some (tearDown works tunnel.loaded session)
  | .restart (some config) secrets now, .restarting _ =>
      match config.validate with
      | .error _ => none
      | .ok _ => some (restartInPlace works secrets config now session)
  | .tearDown, .supervising _ _ => some (tearDown works tunnel.loaded session)
  | .tearDown, .restarting _ => some (tearDown works tunnel.loaded session)
  | _, _ => none

/-- A call, with the operations that succeed. -/
structure Step where
  call : TunnelCall
  works : BackendWorks

def step (taken : Step) (tunnel : HostTunnel) : Option HostTunnel :=
  (perform taken.works taken.call tunnel).map TunnelPerformed.tunnel

end HostTunnel

end PeerCove
