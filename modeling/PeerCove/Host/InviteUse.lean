/-
Module: PeerCove.Host.InviteUse
Layer: Host
Purpose: The control connections of the daemon in `accept_invite`, one at a time under the request
  lock, among the operations that other processes run on `host.toml`.
Trusted boundary: one `HostRequests` for the whole run; `acceptedAt` is the clock of the daemon
Main exports: InviteGrant, InviteHost, InviteEvent, InviteHost.step
-/
import PeerCove.Ops.InviteAcceptance

namespace PeerCove

/-- A success of `accept_invite` on an invitation: the address that presented it, how often a peer
had been appended under this address before, and the device. -/
structure InviteGrant where
  ip : Ipv4Addr
  tenure : Nat
  device : String
deriving DecidableEq

structure InviteHost (ι : Type) where
  roster : LockedFile.State ι Config RosterPlan (Except String RosterResult)
  /-- Who holds the request lock. -/
  request : Option ι := none
  /-- How often a peer was appended under an address (history). -/
  tenure : Ipv4Addr → Nat := fun _ => 0
  /-- The tenure that the request found (history). -/
  seen : Nat := 0
  granted : List InviteGrant := []

inductive InviteEvent (ι : Type) where
  /-- A connection takes the request lock. -/
  | begin (process : ι)
  | file (event : LockedFile.Event ι)
  /-- It loads the file again, answers and releases the request lock. -/
  | answer (process : ι)
deriving DecidableEq

namespace InviteHost

variable {ι : Type} [DecidableEq ι]

def start (ι : Type) (config : Config) : InviteHost ι where
  roster := { file := config }

/-- The address that a connection comes from, with its device. -/
def caller : RosterOp → Option (Ipv4Addr × Option String)
  | .markInvite memberIp _ deviceId => some (memberIp, deviceId)
  | _ => none

def process : LockedFile.Event ι → ι
  | .read process => process
  | .acquire process => process
  | .release process => process

/-- The tenure after a write. -/
def tenureAfter (ops : ι → RosterOp) (event : LockedFile.Event ι) (host : InviteHost ι) :
    Ipv4Addr → Nat :=
  match event with
  | .release writer =>
      match host.roster.stage writer, (ops writer).appends with
      | .holding _ (some _), some peer =>
          Function.update host.tenure peer.ip (host.tenure peer.ip + 1)
      | _, _ => host.tenure
  | _ => host.tenure

/-- The tenure that a read finds. -/
def seenAfter (ops : ι → RosterOp) (event : LockedFile.Event ι) (host : InviteHost ι) : Nat :=
  match event with
  | .read reader =>
      match caller (ops reader) with
      | some (memberIp, _) => host.tenure memberIp
      | none => host.seen
  | _ => host.seen

/-- The success that an answer is recorded as, where the peer joined with an invitation. -/
def grant (host : InviteHost ι) (memberIp : Ipv4Addr) (deviceId : Option String)
    (result : Except String RosterResult) : List InviteGrant :=
  match result, deviceId, acceptAnswer host.roster.file memberIp with
  | .ok (.marked .legacy), _, _ => []
  | .ok (.marked _), some device, .ok _ =>
      [{ ip := memberIp, tenure := host.seen, device := device }]
  | _, _, _ => []

def step (escaped : Char → Bool) (ops : ι → RosterOp) (event : InviteEvent ι)
    (host : InviteHost ι) : Option (InviteHost ι) :=
  match event with
  | .begin process =>
      match caller (ops process), host.request, host.roster.stage process with
      | some _, none, .waiting => some { host with request := some process }
      | _, _, _ => none
  | .file event =>
      if (caller (ops (process event))).isSome ∧ host.request ≠ some (process event) then none
      else
        (LockedFile.step (rosterProtocol escaped) ops event host.roster).map (fun roster =>
          { host with
            roster := roster
            tenure := tenureAfter ops event host
            seen := seenAfter ops event host })
  | .answer process =>
      match caller (ops process), host.roster.stage process with
      | some (memberIp, deviceId), .finished result =>
          if host.request = some process then
            some { host with
              request := none
              granted := host.granted ++ host.grant memberIp deviceId result }
          else none
      | _, _ => none

end InviteHost

end PeerCove
