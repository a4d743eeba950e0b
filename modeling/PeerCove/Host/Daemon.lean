/-
Module: PeerCove.Host.Daemon
Layer: Host
Purpose: The tunnels of the daemon: which may be up beside each other, and the interfaces they take
  and give back while they are started, stopped and put up again.
Trusted boundary: creating an interface fails when there is one of its name; deleting one that is
  not there succeeds; key files, the backend and UPnP are inputs
Main exports: planInterface, Daemon.State, Daemon.start, Daemon.stop, Daemon.step
-/
import PeerCove.Core.Config
import PeerCove.Library.FreshName
import PeerCove.Library.Table

namespace PeerCove

def DEFAULT_IF_NAME : String := "peercove0"

namespace Daemon

/-- What is taken by the tunnels that are up: their subnets, with the names of their networks, and
their interfaces. -/
structure StartLimits where
  usedSubnets : List (Ipv4Net × String)
  usedIfNames : List String

/-- The names that are tried in place of the default one. -/
def peercoveName (number : Nat) : String :=
  s!"peercove{number}"

/-- Whether two networks share an address, one of which is the lowest of the other. -/
def overlaps (used subnet : Ipv4Net) : Bool :=
  used.contains subnet.addr || subnet.contains used.addr

/-- `plan_interface`. -/
def planInterface (config : Config) (limits : StartLimits) : Except String String :=
  let subnet := config.interface.address.trunc
  match limits.usedSubnets.find? (fun used => overlaps used.1 subnet) with
  | some (used, network) =>
      .error (s!"サブネット {subnet.display} は稼働中のネットワーク \"{network}\"({used.display})と" ++
        "重なっています。どちらかを別のサブネットで作り直してください")
  | none =>
      if config.interface.name ≠ DEFAULT_IF_NAME then
        if config.interface.name ∈ limits.usedIfNames then
          .error s!"インターフェース名 {config.interface.name} は稼働中のトンネルが使用しています"
        else .ok config.interface.name
      else
        match FreshName.search peercoveName limits.usedIfNames with
        | some name => .ok name
        | none => .error "空き番号は必ずある"

/-- An entry of the table of tunnels, with the number of its task. -/
structure Active where
  config : String
  network : String
  subnet : Ipv4Net
  ifName : String
  task : Nat

/-- What the task of a tunnel is doing. -/
inductive Phase where
  | supervising
  /-- `restart_in_place` has taken the interface down. -/
  | restarting
  /-- On its way to `tear_down`. -/
  | leaving
  | ended
deriving DecidableEq

structure Task where
  ifName : String
  phase : Phase
  stopRequested : Bool

/-- The table of tunnels, the tasks that have been spawned, and which task has created each
interface of the machine. -/
structure State where
  active : Table String Active
  tasks : Table Nat Task
  nextTask : Nat
  interfaces : Table String Nat

def State.idle : State where
  active := Table.empty
  tasks := Table.empty
  nextTask := 0
  interfaces := Table.empty

def State.limits (state : State) : StartLimits where
  usedSubnets := state.active.rows.map (fun row => (row.2.subnet, row.2.network))
  usedIfNames := state.active.rows.map (fun row => row.2.ifName)

def interfaceExists (name : String) : String :=
  s!"インターフェース {name} の作成に失敗しました"

/-- `start`, with the lock held: `key` is the path of the configuration, `loaded` what is read of
it, and `ready` whether everything but the creation of the interface works. -/
def start (key config : String) (loaded : Except String Config) (ready : Except String Unit)
    (state : State) : Except String State := do
  if (state.active.get? key).isSome then
    throw s!"この設定のトンネルは既に動いています({config})"
  let loaded ← loaded
  let ifName ← planInterface loaded state.limits
  if (state.interfaces.get? ifName).isSome then throw (interfaceExists ifName)
  ready
  return {
    active := state.active.insert key
      { config := config
        network := loaded.networkName
        subnet := loaded.interface.address.trunc
        ifName := ifName
        task := state.nextTask }
    tasks := state.tasks.insert state.nextTask
      { ifName := ifName, phase := .supervising, stopRequested := false }
    nextTask := state.nextTask + 1
    interfaces := state.interfaces.insert ifName state.nextTask }

/-- The entry that is to be stopped, by its key. -/
def stopTarget (request : Option (String × String)) (state : State) :
    Except String (String × Active) :=
  match request with
  | some (key, config) =>
      match state.active.get? key with
      | some active => .ok (key, active)
      | none => .error s!"この設定のトンネルは動いていません({config})"
  | none =>
      match state.active.rows with
      | [] => .error "トンネルは動いていません"
      | [row] => .ok row
      | rows =>
          let running := rows.map (fun row => s!"{row.2.network}({row.2.config})")
          .error ("複数のネットワークが稼働中です。--config で指定してください: " ++
            String.intercalate ", " running)

def Task.requestStop (task : Task) : Task :=
  { task with stopRequested := true }

/-- `stop`: the entry goes at once, its task when it gets to it. -/
def stop (request : Option (String × String)) (state : State) : Except String State := do
  let (key, active) ← stopTarget request state
  return { state with
    active := state.active.erase key
    tasks := state.tasks.update active.task Task.requestStop }

/-- `stop_all`. -/
def stopAll (state : State) : State where
  active := Table.empty
  tasks := state.tasks.mapRows (fun number task =>
    if state.active.rows.any (fun row => row.2.task = number) then task.requestStop else task)
  nextTask := state.nextTask
  interfaces := state.interfaces

/-! ### The task of a tunnel -/

def Task.enter (phase : Phase) (task : Task) : Task :=
  { task with phase := phase }

/-- `down`: the interface of this name goes, whoever has created it. -/
def removeInterface (name : String) (works : Bool) (state : State) : State :=
  if works then { state with interfaces := state.interfaces.erase name } else state

inductive Event where
  | start (key config : String) (loaded : Except String Config) (ready : Except String Unit)
  | stop (request : Option (String × String))
  | stopAll
  /-- The supervisor is to be run again: the interface goes down. -/
  | restartDown (number : Nat) (works : Bool)
  /-- The interface is put up again. -/
  | restartUp (number : Nat) (works : Bool)
  /-- The supervisor ends, on request or with an error. -/
  | leave (number : Nat)
  | tearDown (number : Nat) (works : Bool)

/-- A request that fails changes nothing. -/
def settle (state : State) (result : Except String State) : State :=
  match result with
  | .ok next => next
  | .error _ => state

/-- One event, when a task is at the point where it can happen. -/
def step : Event → State → Option State
  | .start key config loaded ready, state =>
      some (settle state (start key config loaded ready state))
  | .stop request, state => some (settle state (stop request state))
  | .stopAll, state => some (stopAll state)
  | .restartDown number works, state => do
      let task ← state.tasks.get? number
      guard (task.phase = .supervising)
      let next := removeInterface task.ifName works state
      return { next with
        tasks := state.tasks.update number (Task.enter (if works then .restarting else .leaving)) }
  | .restartUp number works, state => do
      let task ← state.tasks.get? number
      guard (task.phase = .restarting)
      if works = true ∧ state.interfaces.get? task.ifName = none then
        return { state with
          interfaces := state.interfaces.insert task.ifName number
          -- a stop in the meantime has been seen as the value the next supervisor begins with
          tasks := state.tasks.update number
            (Task.enter (if task.stopRequested then .leaving else .supervising)) }
      else
        return { state with tasks := state.tasks.update number (Task.enter .leaving) }
  | .leave number, state => do
      let task ← state.tasks.get? number
      guard (task.phase = .supervising)
      return { state with tasks := state.tasks.update number (Task.enter .leaving) }
  | .tearDown number works, state => do
      let task ← state.tasks.get? number
      guard (task.phase = .leaving)
      let next := removeInterface task.ifName works state
      return { next with tasks := state.tasks.update number (Task.enter .ended) }

end Daemon

end PeerCove
