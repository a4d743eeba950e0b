/-
Module: PeerCove.Host.ControlWriter
Layer: Host
Purpose: The control connections of the host: `accept_invite` at the Hello, the isolation flag, the
  queue of each connection with everything that fills it, and the writer that sends the ledger, the
  queue and pings.
Trusted boundary: `accept_invite` is one step; writes to a socket do not fail
Main exports: HostMessage, ControlConnection, ControlHost, ControlEvent, ControlHost.step
-/
import PeerCove.Host.BuildLedger
import PeerCove.Library.Runs
import PeerCove.Memo.Requests
import PeerCove.Ops.InviteAcceptance

namespace PeerCove

/-- What the host writes to a member.  The results of the requests that change `host.toml` are of
one type. -/
inductive HostMessage (ρ : Type) where
  | ping (nonce : Nat)
  | pong (nonce : Nat)
  | joinRejected (message : String)
  | removed (message : String)
  | ledger (message : LedgerMessage)
  | memoEvent (event : SharedMemoEvent)
  | memoResp (seq : Nat) (reply : Except String SharedMemoReply)
  | result (result : ρ)

/-- What the host reads from a member, as far as it matters for what it writes. -/
inductive MemberMessage where
  | ping (nonce : Nat)
  | pong (nonce : Nat)
  /-- `RotateKey`, `SetDnsName`, `SetDisplayName`, `CreateInvite`, `MemoReq`, `AdminDnsOp` or
  `AdminOp`. -/
  | request
  | other
deriving DecidableEq

inductive ControlPhase where
  /-- `accept_invite` has answered. -/
  | accepted
  /-- The connection is in the table of connections, with the ledger it starts with. -/
  | registered (initial : Distribution)
  | writing
  | closed
deriving DecidableEq

/-- `handle_member` with its writer and its reader. -/
structure ControlConnection (ρ : Type) where
  ip : Ipv4Addr
  capabilities : List String
  isolation : Bool
  phase : ControlPhase := .accepted
  /-- The version of the watch channel that was taken up last. -/
  seen : Nat := 0
  queue : List (HostMessage ρ) := []
  /-- The reader carries out a request. -/
  applying : Bool := false
  /-- The flag was set, and `host.toml` has not shown an approval since; for the statements only. -/
  held : Bool := false

/-- The member waits for its approval: the flag is set, or something else than an approval has
cleared it. -/
def ControlConnection.awaits {ρ : Type} (connection : ControlConnection ρ) : Bool :=
  connection.isolation || connection.held

/-- Something that was written to a socket, and whether the member waited for its approval then. -/
structure ControlSent (ρ : Type) where
  connectionId : Nat
  message : HostMessage ρ
  awaiting : Bool

structure ControlHost (ρ : Type) where
  /-- `host.toml`. -/
  config : Config
  /-- What the supervisor has read of it in this period. -/
  loaded : Option Config := none
  /-- The watch channel. -/
  published : Distribution := {}
  version : Nat := 0
  connections : Table Nat (ControlConnection ρ) := Table.empty
  /-- `Connections`: the current connection of an address. -/
  current : Table Ipv4Addr Nat := Table.empty
  nextConnectionId : Nat := 1
  nextNonce : Nat := 1
  /-- Broadcasts of the memo service: the connections that are still to be sent to. -/
  broadcasts : List (List Nat) := []
  sent : List (ControlSent ρ) := []

/-- `host.toml` has a peer with the address, and its invitation does not wait for an approval. -/
def Config.approves (config : Config) (ip : Ipv4Addr) : Bool :=
  (config.peers.find? (fun peer => peer.virtualIp = some ip)).any
    (fun peer => !peer.inviteIsIsolated)

/-- `accept_invite`: whether the member is isolated, and the file it leaves. -/
def acceptInvite (config : Config) (memberIp : Ipv4Addr) (acceptedAt : Nat)
    (deviceId : Option String) : Except String Bool × Config :=
  match markInvitePlan config memberIp acceptedAt deviceId with
  | .error message => (.error message, config)
  | .ok (.inl _) => (acceptAnswer config memberIp, config)
  | .ok (.inr (key, device)) =>
      match editPeer key (PeerConfig.accept acceptedAt device) config with
      | .error message => (.error message, config)
      | .ok edited => (acceptAnswer edited memberIp, edited)

/-- The reason that `JoinRejected` gives. -/
def rejection (reason : String) : String :=
  s!"{reason}。ホストから新しい招待トークンを受け取ってください。"

def REMOVED : String := "ホストによってこのネットワークから削除されました"

/-- What a request that was carried out is answered with. -/
inductive RequestAnswer (ρ : Type) where
  | memo (seq : Nat) (reply : Except String SharedMemoReply)
  | result (answered : ρ)

def RequestAnswer.message {ρ : Type} (answer : RequestAnswer ρ) : HostMessage ρ :=
  match answer with
  | .memo seq reply => .memoResp seq reply
  | .result answered => .result answered

inductive ControlEvent (ρ : Type) where
  /-- The Hello of a new connection. -/
  | hello (ip : Ipv4Addr) (capabilities : List String) (deviceId : Option String) (now : Nat)
  | register (id : Nat)
  /-- The writer starts. -/
  | greet (id : Nat)
  /-- The branches of the writer: a new ledger, a queued message, a ping. -/
  | takeLedger (id : Nat)
  | takeQueued (id : Nat)
  | ping (id : Nat)
  /-- The reader takes a message; it has carried out a request. -/
  | read (id : Nat) (message : MemberMessage)
  | answer (id : Nat) (answer : RequestAnswer ρ)
  | close (id : Nat)
  /-- A broadcast of the memo service looks up the connections, and goes on to the next of them:
  with an event, or without where there is nothing to send. -/
  | lookUp
  | announce (place : Nat) (event : Option SharedMemoEvent)
  /-- `host.toml` is edited, by an approval among others. -/
  | configure (config : Config)
  /-- The supervisor reads the configuration, notifies a removed member, and publishes. -/
  | load
  | notifyRemoved (ip : Ipv4Addr)
  | publish (view : HostView)

namespace ControlHost

variable {ρ : Type}

def start (config : Config) : ControlHost ρ where
  config := config

def write (id : Nat) (connection : ControlConnection ρ) (message : HostMessage ρ)
    (host : ControlHost ρ) : ControlHost ρ :=
  { host with
    sent := host.sent ++
      [{ connectionId := id, message := message, awaiting := connection.awaits }] }

def setConnection (id : Nat) (connection : ControlConnection ρ) (host : ControlHost ρ) :
    ControlHost ρ :=
  { host with connections := host.connections.insert id connection }

/-- A message for the queue of a connection; a closed one takes none. -/
def enqueue (id : Nat) (message : HostMessage ρ) (host : ControlHost ρ) : ControlHost ρ :=
  { host with
    connections := host.connections.update id (fun connection =>
      if connection.phase = .closed then connection
      else { connection with queue := connection.queue ++ [message] }) }

/-- `memo_connections`. -/
def memoConnections (host : ControlHost ρ) : List Nat :=
  host.current.rows.filterMap (fun (_, id) =>
    match host.connections.get? id with
    | some connection => if "shared_memo" ∈ connection.capabilities then some id else none
    | none => none)

/-- `host.toml` is written; connections whose member it approves are held no longer. -/
def configure (config : Config) (host : ControlHost ρ) : ControlHost ρ :=
  { host with
    config := config
    connections := host.connections.mapRows (fun _ connection =>
      { connection with held := connection.held && !config.approves connection.ip }) }

/-- `send_if_modified`. -/
def publish (dist : Distribution) (host : ControlHost ρ) : ControlHost ρ :=
  if host.published ≠ dist then
    { host with published := dist, version := host.version + 1 }
  else host

/-- A new ledger is taken up: the flag follows it, and it is written to a member that does not
wait. -/
def takeLedger (id : Nat) (connection : ControlConnection ρ) (host : ControlHost ρ) :
    ControlHost ρ :=
  let isolated := host.published.members.any (fun entry =>
    entry.ip = connection.ip && entry.awaitsApproval)
  let connection := { connection with
    seen := host.version
    isolation := isolated
    held := if isolated then !host.config.approves connection.ip else connection.held }
  let host := host.setConnection id connection
  if isolated then host
  else host.write id connection (.ledger (ledgerMessageFor host.published connection.ip))

/-- What the reader does with a message. -/
def readMessage (id : Nat) (connection : ControlConnection ρ) (message : MemberMessage)
    (host : ControlHost ρ) : ControlHost ρ :=
  match message with
  | .ping nonce => host.enqueue id (.pong nonce)
  | .pong _ | .other => host
  | .request =>
      -- what an isolated member asks for is dropped
      if connection.isolation then host
      else host.setConnection id { connection with applying := true }

/-- The queue of a writer gives its first message; after `Removed` the writer ends. -/
def takeQueued (id : Nat) (connection : ControlConnection ρ) (host : ControlHost ρ) :
    Option (ControlHost ρ) :=
  match connection.queue with
  | [] => none
  | message :: rest =>
      let phase := match message with
        | .removed _ => .closed
        | _ => connection.phase
      let connection := { connection with queue := rest, phase := phase }
      some ((host.setConnection id connection).write id connection message)

/-- An event on one connection. -/
def connectionStep (id : Nat) (connection : ControlConnection ρ) (event : ControlEvent ρ)
    (host : ControlHost ρ) : Option (ControlHost ρ) :=
  match event, connection.phase with
  | .register _, .accepted =>
      some { host.setConnection id
          { connection with phase := .registered host.published, seen := host.version } with
        current := host.current.insert connection.ip id }
  | .greet _, .registered initial =>
      let started := { connection with phase := .writing }
      let host := host.setConnection id started
      some (if connection.isolation then host
        else host.write id started (.ledger (ledgerMessageFor initial connection.ip)))
  | .takeLedger _, .writing =>
      if connection.seen = host.version then none else some (host.takeLedger id connection)
  | .takeQueued _, .writing => host.takeQueued id connection
  | .ping _, .writing =>
      some { host.write id connection (.ping host.nextNonce) with nextNonce := host.nextNonce + 1 }
  | .read _ message, .registered _ | .read _ message, .writing =>
      if connection.applying then none else some (host.readMessage id connection message)
  | .answer _ answer, .registered _ | .answer _ answer, .writing =>
      if connection.applying then
        some ((host.setConnection id { connection with applying := false }).enqueue id
          answer.message)
      else none
  | .close _, .registered _ | .close _, .writing | .close _, .closed =>
      some { host.setConnection id { connection with phase := .closed } with
        current := host.current.filter (fun _ other => other ≠ id) }
  | _, _ => none

/-- The connection an event is on. -/
def connectionOf : ControlEvent ρ → Option Nat
  | .register id | .greet id | .takeLedger id | .takeQueued id | .ping id | .read id _
  | .answer id _ | .close id => some id
  | _ => none

/-- A new connection, or the refusal that is written to it. -/
def hello (ip : Ipv4Addr) (capabilities : List String) (deviceId : Option String) (now : Nat)
    (host : ControlHost ρ) : ControlHost ρ :=
  let (answer, config) := acceptInvite host.config ip now deviceId
  let id := host.nextConnectionId
  let host := { host with config := config, nextConnectionId := id + 1 }
  match answer with
  | .ok isolated =>
      host.setConnection id
        { ip := ip, capabilities := capabilities, isolation := isolated, held := isolated }
  | .error reason =>
      let refused : ControlConnection ρ :=
        { ip := ip, capabilities := capabilities, isolation := true, phase := .closed,
          held := true }
      host.write id refused (.joinRejected (rejection reason))

def step (event : ControlEvent ρ) (host : ControlHost ρ) : Option (ControlHost ρ) :=
  match event with
  | .hello ip capabilities deviceId now => some (host.hello ip capabilities deviceId now)
  | .lookUp => some { host with broadcasts := host.broadcasts ++ [host.memoConnections] }
  | .announce place event =>
      match host.broadcasts[place]? with
      | some (id :: rest) =>
          let host := { host with broadcasts := host.broadcasts.set place rest }
          match event with
          | some event => some (host.enqueue id (.memoEvent event))
          | none => some host
      | _ => none
  | .configure config => some (host.configure config)
  | .load => some { host with loaded := some host.config }
  | .notifyRemoved ip =>
      match host.current.get? ip with
      | some id => some (host.enqueue id (.removed REMOVED))
      | none => none
  | .publish view =>
      match host.loaded with
      | some config => some (host.publish { view with config := config : HostView }.distribution)
      | none => none
  | event =>
      match connectionOf event with
      | some id => (host.connections.get? id).bind (fun connection =>
          host.connectionStep id connection event)
      | none => none

end ControlHost

end PeerCove
