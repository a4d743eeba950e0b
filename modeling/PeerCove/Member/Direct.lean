/-
Module: PeerCove.Member.Direct
Layer: Member
Purpose: The direct peers of a member: `DirectManager` derives them from the ledger, probes them,
  gives them their addresses after a handshake, and takes them off the interface again.
Trusted boundary: the backend carries out what it is asked for; the order of the ledger's entries
  stands for the order of the maps
Main exports: DirectManager, DirectNet, DirectTick, DirectManager.desired, DirectManager.act,
  DirectNet.tick
-/
import PeerCove.Host.Distribution
import PeerCove.Library.Table

namespace PeerCove

/-! ### Times, in nanoseconds -/

/-- `Duration::from_secs`. -/
def fromSecs (secs : Nat) : Nat :=
  secs * 1000000000

def MAX_ENDPOINT_AGE : Nat := fromSecs 300
def TRYING_TIMEOUT : Nat := fromSecs 45
def HANDSHAKE_STALE : Nat := fromSecs 180
def RETRY_INTERVAL : Nat := fromSecs 60
def DIRECT_KEEPALIVE : UInt16 := 25

/-- The period of `supervise`. -/
def SUPERVISE_INTERVAL : Nat := fromSecs 5

/-! ### State -/

inductive DirectPhase where
  /-- A probe is on the interface, without addresses. -/
  | trying (since : Nat) (quiet : Bool)
  | direct
deriving DecidableEq

structure DirectState where
  ip : Ipv4Addr
  endpoint : SocketAddr
  phase : DirectPhase
deriving DecidableEq

structure Cooldown where
  endpoint : SocketAddr
  at_ : Nat
deriving DecidableEq

inductive DirectAct where
  | add
  | rebind
  | establish
  | fail
  | keep
deriving DecidableEq

structure DirectManager where
  selfKey : PublicKey
  subnet : Ipv4Net
  states : Table PublicKey DirectState := Table.empty
  cooldown : Table PublicKey Cooldown := Table.empty

structure ReceivedDistribution where
  distribution : Distribution
  receivedAt : Nat

structure PeerStats where
  publicKey : PublicKey
  /-- By the wall clock. -/
  lastHandshake : Option Nat

/-- What `tick` is called with, and the wall clock that it reads. -/
structure DirectTick where
  now : Nat
  wall : Nat
  enabled : Bool
  received : Option ReceivedDistribution
  stats : List PeerStats

/-- A direct peer on the interface. -/
structure DirectPeer where
  endpoint : Option SocketAddr
  allowedIps : List Ipv4Net
  persistentKeepalive : Option UInt16
  /-- When it was put on the interface, by the wall clock (history). -/
  added : Nat
  /-- The handshake that was observed when it was given its addresses, and the time then
  (history). -/
  seen : Option (Nat × Nat)

/-- The manager and the direct peers on its interface. -/
structure DirectNet where
  manager : DirectManager
  peers : Table PublicKey DirectPeer := Table.empty

namespace DirectTick

/-- The last handshake with a peer, as the statistics have it. -/
def handshake (tick : DirectTick) (key : PublicKey) : Option Nat :=
  ((tick.stats.filter (fun stats => stats.publicKey = key)).getLast?).bind PeerStats.lastHandshake

/-- `handshake_fresh`: a handshake in the future counts as none. -/
def handshakeFresh (tick : DirectTick) (key : PublicKey) : Bool :=
  (tick.handshake key).any (fun time => time ≤ tick.wall && tick.wall - time ≤ HANDSHAKE_STALE)

end DirectTick

namespace DirectManager

variable (manager : DirectManager)

/-- Whom an entry asks to try, and where. -/
def candidate (sinceReceipt : Nat) (entry : LedgerEntry) :
    Option (PublicKey × Ipv4Addr × SocketAddr) :=
  if entry.isHost || !entry.online || entry.blocked || entry.forceRelay then none
  else if entry.publicKey = manager.selfKey then none
  else
    match entry.endpoint with
    | none => none
    | some endpoint =>
        if fromSecs (entry.endpointAgeSecs.getD 0) + sinceReceipt > MAX_ENDPOINT_AGE then none
        else if manager.subnet.contains entry.ip = false then none
        else some (entry.publicKey, entry.ip, endpoint)

/-- `desired`: whom to try, by the ledger.  Of two entries with one key the later one counts. -/
def desired (now : Nat) (received : Option ReceivedDistribution) :
    Table PublicKey (Ipv4Addr × SocketAddr) :=
  match received with
  | none => Table.empty
  | some received =>
      (received.distribution.members.filterMap
        (manager.candidate (now - received.receivedAt))).foldl
          (fun table entry => table.insert entry.1 entry.2) Table.empty

/-- What to do about a desired peer. -/
def act (now : Nat) (fresh : Bool) (key : PublicKey) (endpoint : SocketAddr) : DirectAct :=
  match manager.states.get? key with
  | some state =>
      if state.endpoint ≠ endpoint then .rebind
      else
        match state.phase with
        | .trying since _ =>
            if fresh then .establish
            else if now - since > TRYING_TIMEOUT then .fail
            else .keep
        | .direct => if fresh then .keep else .fail
  | none =>
      match manager.cooldown.get? key with
      | some cooldown =>
          if cooldown.endpoint = endpoint ∧ now - cooldown.at_ < RETRY_INTERVAL then .keep
          else .add
      | none => .add

end DirectManager

namespace DirectNet

variable (net : DirectNet)

def forgetCooldown (key : PublicKey) : DirectNet :=
  { net with manager := { net.manager with cooldown := net.manager.cooldown.erase key } }

/-- `try_add`: a probe, which takes no addresses. -/
def tryAdd (tick : DirectTick) (key : PublicKey) (ip : Ipv4Addr) (endpoint : SocketAddr)
    (quiet : Bool) : DirectNet :=
  { manager := { net.manager with
      states := net.manager.states.insert key {
        ip := ip
        endpoint := endpoint
        phase := .trying tick.now quiet } }
    peers := net.peers.insert key {
      endpoint := some endpoint
      allowedIps := []
      persistentKeepalive := some DIRECT_KEEPALIVE
      added := tick.wall
      seen := none } }

/-- `drop_peer`. -/
def dropPeer (key : PublicKey) : DirectNet :=
  { manager := { net.manager with states := net.manager.states.erase key }
    peers := net.peers.erase key }

/-- The peer is given its address; it keeps its endpoint. -/
def establish (tick : DirectTick) (key : PublicKey) (ip : Ipv4Addr) : DirectNet :=
  { manager := { net.manager with
      states := net.manager.states.update key (fun state => { state with phase := .direct })
      cooldown := net.manager.cooldown.erase key }
    peers := net.peers.update key (fun peer => { peer with
      allowedIps := [Ipv4Net.host ip]
      persistentKeepalive := some DIRECT_KEEPALIVE
      seen := (tick.handshake key).map (fun time => (time, tick.wall)) }) }

/-- A failure holds the next try back. -/
def fail (tick : DirectTick) (key : PublicKey) (endpoint : SocketAddr) : DirectNet :=
  { net with
    manager := { net.manager with
      cooldown := net.manager.cooldown.insert key { endpoint := endpoint, at_ := tick.now } }
    : DirectNet }.dropPeer key

/-- The loop body of `tick` for one desired peer. -/
def attend (tick : DirectTick) (net : DirectNet) (wish : PublicKey × Ipv4Addr × SocketAddr) :
    DirectNet :=
  match wish with
  | (key, ip, endpoint) =>
      match net.manager.act tick.now (tick.handshakeFresh key) key endpoint with
      | .add =>
          let quiet := (net.manager.cooldown.get? key).any (fun cooldown =>
            cooldown.endpoint = endpoint)
          (net.forgetCooldown key).tryAdd tick key ip endpoint quiet
      | .rebind => ((net.forgetCooldown key).dropPeer key).tryAdd tick key ip endpoint false
      | .establish => net.establish tick key ip
      | .fail => net.fail tick key endpoint
      | .keep => net

/-- Old failures are forgotten. -/
def sweepCooldown (now : Nat) : DirectNet :=
  { net with
    manager := { net.manager with
      cooldown := net.manager.cooldown.filter (fun _ cooldown =>
        now - cooldown.at_ < RETRY_INTERVAL * 2) } }

/-- Whom the tick wants on the interface. -/
def wishes (tick : DirectTick) : Table PublicKey (Ipv4Addr × SocketAddr) :=
  if tick.enabled then net.manager.desired tick.now tick.received else Table.empty

/-- `DirectManager::tick`. -/
def tick (tick : DirectTick) : DirectNet :=
  let swept := net.sweepCooldown tick.now
  let desired := net.wishes tick
  let gone := (swept.manager.states.rows.map Prod.fst).filter (fun key =>
    (desired.get? key).isNone)
  desired.rows.foldl (attend tick) (gone.foldl dropPeer swept)

end DirectNet

end PeerCove
