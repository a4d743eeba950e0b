/-
Module: PeerCove.Host.PeerSync
Layer: Host
Purpose: The ticks of `sync_peers` one after the other, with the messages it sends to peers that are
  removed, where all operations of the backend succeed.
Trusted boundary: the operations of the backend succeed; maps are walked in the order of insertion
Main exports: SyncTick, syncNotices, SyncState, SyncState.step
-/
import PeerCove.Host.Tunnel

namespace PeerCove

/-- What a tick reads: the configuration, the key files, the clock, and who is connected. -/
structure SyncTick where
  config : Config
  secrets : TunnelSecrets
  now : Nat
  connected : List Ipv4Addr

/-- Every operation of the backend succeeds. -/
def allWork : BackendWorks := fun _ _ => true

/-- The `Removed` messages of `sync_peers`: the key of the peer and the address whose connection the
message goes to, if there is one. -/
def syncNotices (works : BackendWorks) (tick : SyncTick) (run : Supervisor)
    (session : BackendSession) : List (PublicKey × Ipv4Addr) :=
  let eligible := eligiblePeers tick.config tick.now
  let rotated := (run.known.filter (takenOver tick.config tick.now)).map Prod.fst
  let swapped := removePeers works rotated run session
  let added := addPeers works tick.secrets eligible swapped.1 swapped.2
  let gone := added.1.known.filter (fun entry =>
    eligible.all (fun peer => peer.publicKey ≠ entry.1))
  let first := gone.filter (fun entry => entry.1 ∉ added.1.pendingRemoval)
  (first.map (fun entry => (entry.1, entry.2.ip))).filter (fun notice => notice.2 ∈ tick.connected)

/-- The interface and what `supervise` remembers, with what the last tick has read and sent. -/
structure SyncState where
  run : Supervisor
  backend : TunnelBackend
  /-- The peers of the last configuration that may connect (history). -/
  eligible : List PeerConfig
  /-- What the key files said at the last tick (history). -/
  secrets : TunnelSecrets
  /-- Who was connected at the last tick (history). -/
  connected : List Ipv4Addr := []
  /-- What the configuration before the last one asked for (history). -/
  before : List PeerSpec := []
  /-- The messages of the last tick (history). -/
  told : List (PublicKey × Ipv4Addr) := []

namespace SyncState

/-- The tunnel after `bring_up`. -/
def started (secrets : TunnelSecrets) (config : Config) (now : Nat) (spec : TunnelSpec) :
    SyncState where
  run := Supervisor.start spec
  backend := { peers := spec.peers, isolated := inviteIsolation config }
  eligible := eligiblePeers config now
  secrets := secrets

/-- What the last configuration asks for. -/
def asked (state : SyncState) : List PeerSpec :=
  state.eligible.filterMap (fun peer => (buildPeerSpec state.secrets peer).toOption)

/-- A tick on a configuration that is valid. -/
def step (tick : SyncTick) (state : SyncState) : Option SyncState :=
  match tick.config.validate with
  | .error _ => none
  | .ok _ =>
      let session : BackendSession := { state := state.backend }
      let done := syncPeers allWork tick.secrets tick.config tick.now state.run session
      some {
        run := done.1
        backend := done.2.state
        eligible := eligiblePeers tick.config tick.now
        secrets := tick.secrets
        connected := tick.connected
        before := state.asked
        told := syncNotices allWork tick state.run session }

end SyncState

end PeerCove
