/-
Module: PeerCove.Proofs.DaemonRuns
Layer: Proofs
Purpose: Whatever is started, stopped and put up again in any order, the tunnels of the daemon share
  no address and no interface, and nothing takes the interface of a tunnel from it that is stopped
  only while it has one.
Trusted boundary: none
Main exports: Ipv4Net.Apart, Daemon.Sound, Daemon.tunnels_apart, Daemon.Owned,
  Daemon.interfaces_owned
-/
import PeerCove.Host.Daemon
import PeerCove.Library.Runs
import PeerCove.Proofs.PolicyMigration

namespace PeerCove

/-- No address belongs to both networks. -/
def Ipv4Net.Apart (one two : Ipv4Net) : Prop :=
  ∀ ip, ¬(one.contains ip = true ∧ two.contains ip = true)

theorem Ipv4Net.Apart.symm {one two : Ipv4Net} (apart : one.Apart two) : two.Apart one :=
  fun ip both => apart ip ⟨both.2, both.1⟩

namespace Daemon

/-! ### What may be up beside each other -/

theorem trunc_network (net : Ipv4Net) : net.trunc.network = net.trunc.addr := by
  have mask : net.trunc.netmask = net.netmask := rfl
  rw [Ipv4Net.network, mask]
  change (net.addr &&& net.netmask) &&& net.netmask = net.addr &&& net.netmask
  rw [BitVec.and_assoc, BitVec.and_self]

/-- Of two networks that share an address, one has the lowest address of the other. -/
theorem overlaps_of_shared {used subnet : Ipv4Net} (one : used.network = used.addr)
    (two : subnet.network = subnet.addr) {ip : Ipv4Addr} (inUsed : used.contains ip = true)
    (inSubnet : subnet.contains ip = true) : overlaps used subnet = true := by
  simp only [Ipv4Net.contains, Bool.and_eq_true, decide_eq_true_eq, one, two] at inUsed inSubnet
  simp only [overlaps, Ipv4Net.contains, Bool.or_eq_true, Bool.and_eq_true, decide_eq_true_eq,
    one, two]
  simp only [BitVec.le_def] at inUsed inSubnet ⊢
  omega

/-- A plan takes no interface and no address of a tunnel that is up. -/
theorem planInterface_ok {config : Config} {limits : StartLimits} {name : String}
    (planned : planInterface config limits = .ok name) :
    name ∉ limits.usedIfNames ∧
      ∀ used ∈ limits.usedSubnets, overlaps used.1 config.interface.address.trunc = false := by
  unfold planInterface at planned
  cases found : limits.usedSubnets.find?
      (fun used => overlaps used.1 config.interface.address.trunc) with
  | some used =>
      simp only [found] at planned
      cases planned
  | none =>
      refine ⟨?_, by simpa using found⟩
      simp only [found] at planned
      split at planned
      · split at planned
        · cases planned
        · rename_i free
          cases planned
          exact free
      · cases searched : FreshName.search peercoveName limits.usedIfNames with
        | none =>
            simp only [searched] at planned
            cases planned
        | some first =>
            simp only [searched] at planned
            cases planned
            exact (FreshName.search_spec searched).1

/-! ### What each event does -/

variable {key config : String} {loaded : Except String Config} {ready : Except String Unit}
  {state next : State}

theorem start_ok (started : start key config loaded ready state = .ok next) :
    ∃ read ifName, loaded = .ok read ∧ state.active.get? key = none ∧
      planInterface read state.limits = .ok ifName ∧ state.interfaces.get? ifName = none ∧
      next = {
        active := state.active.insert key
          { config := config
            network := read.networkName
            subnet := read.interface.address.trunc
            ifName := ifName
            task := state.nextTask }
        tasks := state.tasks.insert state.nextTask
          { ifName := ifName, phase := .supervising, stopRequested := false }
        nextTask := state.nextTask + 1
        interfaces := state.interfaces.insert ifName state.nextTask } := by
  unfold start at started
  cases there : state.active.get? key with
  | some active => simp [there] at started
  | none =>
      cases reads : loaded with
      | error message => simp [there, reads] at started
      | ok read =>
          cases planned : planInterface read state.limits with
          | error message => simp [there, reads, planned] at started
          | ok ifName =>
              cases taken : state.interfaces.get? ifName with
              | some number => simp [there, reads, planned, taken] at started
              | none =>
                  cases works : ready with
                  | error message => simp [there, reads, planned, taken, works] at started
                  | ok _ =>
                      refine ⟨read, ifName, rfl, rfl, planned, taken, ?_⟩
                      simp [there, reads, planned, taken, works] at started
                      exact started.symm

theorem stopTarget_ok {request : Option (String × String)} {found : Active}
    (target : stopTarget request state = .ok (key, found)) :
    state.active.get? key = some found := by
  unfold stopTarget at target
  cases request with
  | some named =>
      cases there : state.active.get? named.1 with
      | none =>
          simp only [there] at target
          cases target
      | some active =>
          simp only [there] at target
          cases target
          exact there
  | none =>
      cases rows : state.active.rows with
      | nil =>
          simp only [rows] at target
          cases target
      | cons row rest =>
          cases rest with
          | nil =>
              simp only [rows] at target
              cases target
              rw [Table.get?_eq_some, rows]
              exact List.mem_singleton_self _
          | cons second others =>
              simp only [rows] at target
              cases target

theorem stop_ok {request : Option (String × String)} (stopped : stop request state = .ok next) :
    ∃ key found, stopTarget request state = .ok (key, found) ∧
      next = { state with
        active := state.active.erase key
        tasks := state.tasks.update found.task Task.requestStop } := by
  unfold stop at stopped
  cases target : stopTarget request state with
  | error message => simp [target] at stopped
  | ok named =>
      simp [target] at stopped
      exact ⟨named.1, named.2, rfl, stopped.symm⟩

/-- What a task can do, with what is there afterwards. -/
inductive TaskStep (state : State) (number : Nat) (task : Task) : Event → State → Prop where
  | down (works : Bool) (phase : task.phase = .supervising) :
      TaskStep state number task (.restartDown number works)
        { removeInterface task.ifName works state with
          tasks := state.tasks.update number
            (Task.enter (if works then .restarting else .leaving)) }
  | up (phase : task.phase = .restarting) (free : state.interfaces.get? task.ifName = none) :
      TaskStep state number task (.restartUp number true)
        { state with
          interfaces := state.interfaces.insert task.ifName number
          tasks := state.tasks.update number
            (Task.enter (if task.stopRequested then .leaving else .supervising)) }
  | failed (works : Bool) (phase : task.phase = .restarting) :
      TaskStep state number task (.restartUp number works)
        { state with tasks := state.tasks.update number (Task.enter .leaving) }
  | leave (phase : task.phase = .supervising) :
      TaskStep state number task (.leave number)
        { state with tasks := state.tasks.update number (Task.enter .leaving) }
  | tearDown (works : Bool) (phase : task.phase = .leaving) :
      TaskStep state number task (.tearDown number works)
        { removeInterface task.ifName works state with
          tasks := state.tasks.update number (Task.enter .ended) }

/-- An event is refused, starts or stops something, or is one of a task. -/
theorem step_cases {event : Event} (happens : step event state = some next) :
    next = state ∨
      (∃ key config loaded ready, event = .start key config loaded ready ∧
        start key config loaded ready state = .ok next) ∨
      (∃ request, event = .stop request ∧ stop request state = .ok next) ∨
      (event = .stopAll ∧ next = stopAll state) ∨
      ∃ number task, state.tasks.get? number = some task ∧
        TaskStep state number task event next := by
  cases event with
  | start key config loaded ready =>
      rw [step] at happens
      cases started : start key config loaded ready state with
      | error message =>
          rw [started] at happens
          exact .inl (Option.some.inj happens).symm
      | ok after =>
          rw [started, settle] at happens
          exact .inr (.inl ⟨key, config, loaded, ready, rfl, started.trans
            (congrArg Except.ok (Option.some.inj happens))⟩)
  | stop request =>
      rw [step] at happens
      cases stopped : stop request state with
      | error message =>
          rw [stopped] at happens
          exact .inl (Option.some.inj happens).symm
      | ok after =>
          rw [stopped, settle] at happens
          exact .inr (.inr (.inl ⟨request, rfl, stopped.trans
            (congrArg Except.ok (Option.some.inj happens))⟩))
  | stopAll => exact .inr (.inr (.inr (.inl ⟨rfl, (Option.some.inj happens).symm⟩)))
  | restartDown number works =>
      refine .inr (.inr (.inr (.inr ?_)))
      simp only [step, Option.bind_eq_bind, Option.bind_eq_some_iff] at happens
      obtain ⟨task, found, _, phase, same⟩ := happens
      refine ⟨number, task, found, ?_⟩
      cases same
      exact .down works (by simpa [guard] using phase)
  | restartUp number works =>
      refine .inr (.inr (.inr (.inr ?_)))
      simp only [step, Option.bind_eq_bind, Option.bind_eq_some_iff] at happens
      obtain ⟨task, found, _, phase, same⟩ := happens
      refine ⟨number, task, found, ?_⟩
      split at same
      · rename_i free
        cases same
        rw [free.1]
        exact .up (by simpa [guard] using phase) free.2
      · cases same
        exact .failed works (by simpa [guard] using phase)
  | leave number =>
      refine .inr (.inr (.inr (.inr ?_)))
      simp only [step, Option.bind_eq_bind, Option.bind_eq_some_iff] at happens
      obtain ⟨task, found, _, phase, same⟩ := happens
      refine ⟨number, task, found, ?_⟩
      cases same
      exact .leave (by simpa [guard] using phase)
  | tearDown number works =>
      refine .inr (.inr (.inr (.inr ?_)))
      simp only [step, Option.bind_eq_bind, Option.bind_eq_some_iff] at happens
      obtain ⟨task, found, _, phase, same⟩ := happens
      refine ⟨number, task, found, ?_⟩
      cases same
      exact .tearDown works (by simpa [guard] using phase)

theorem TaskStep.frame {number : Nat} {task : Task} {event : Event}
    (taken : TaskStep state number task event next) :
    next.active = state.active ∧ next.nextTask = state.nextTask ∧
      ∃ phase, next.tasks = state.tasks.update number (Task.enter phase) := by
  have removed : ∀ works, (removeInterface task.ifName works state).active = state.active ∧
      (removeInterface task.ifName works state).nextTask = state.nextTask := by
    intro works
    cases works <;> exact ⟨rfl, rfl⟩
  cases taken with
  | down works _ => exact ⟨(removed works).1, (removed works).2, _, rfl⟩
  | up _ _ => exact ⟨rfl, rfl, _, rfl⟩
  | failed _ _ => exact ⟨rfl, rfl, _, rfl⟩
  | leave _ => exact ⟨rfl, rfl, _, rfl⟩
  | tearDown works _ => exact ⟨(removed works).1, (removed works).2, _, rfl⟩

/-! ### The table of tunnels -/

/-- What holds of the tunnels that are up, whatever happens. -/
structure Sound (state : State) : Prop where
  aligned : ∀ key active, state.active.get? key = some active →
    active.subnet.network = active.subnet.addr
  apart : ∀ one two first second, state.active.get? one = some first →
    state.active.get? two = some second → one ≠ two →
    first.ifName ≠ second.ifName ∧ first.subnet.Apart second.subnet

/-- A new tunnel is apart from each of those that are up. -/
theorem planned_apart {read : Config} {ifName other : String} {active : Active}
    (planned : planInterface read state.limits = .ok ifName)
    (there : state.active.get? other = some active)
    (aligned : active.subnet.network = active.subnet.addr) :
    active.ifName ≠ ifName ∧ active.subnet.Apart read.interface.address.trunc := by
  obtain ⟨free, subnets⟩ := planInterface_ok planned
  have listed := Table.get?_eq_some.mp there
  constructor
  · intro same
    exact free (same ▸ List.mem_map.mpr ⟨_, listed, rfl⟩)
  · intro ip both
    have disjoint := subnets (active.subnet, active.network) (List.mem_map.mpr ⟨_, listed, rfl⟩)
    rw [overlaps_of_shared aligned (trunc_network _) both.1 both.2] at disjoint
    cases disjoint

/-- Taking entries out leaves the others apart. -/
theorem Sound.of_subset (sound : Sound state)
    (fewer : ∀ key active, next.active.get? key = some active →
      state.active.get? key = some active) : Sound next where
  aligned key active there := sound.aligned key active (fewer key active there)
  apart one two first second here there :=
    sound.apart one two first second (fewer one first here) (fewer two second there)

theorem Sound.start (sound : Sound state)
    (started : start key config loaded ready state = .ok next) : Sound next := by
  obtain ⟨read, ifName, _, absent, planned, _, rfl⟩ := start_ok started
  constructor
  · intro other active there
    simp only [Table.get?_insert] at there
    split at there
    · cases there
      exact trunc_network _
    · exact sound.aligned other active there
  · intro one two first second here there differ
    simp only [Table.get?_insert] at here there
    split at here
    · rename_i new
      rw [if_neg (fun same => differ (new.trans same.symm))] at there
      cases here
      obtain ⟨name, subnet⟩ := planned_apart planned there (sound.aligned two second there)
      exact ⟨name.symm, subnet.symm⟩
    · split at there
      · cases there
        exact planned_apart planned here (sound.aligned one first here)
      · exact sound.apart one two first second here there differ

theorem Sound.step (event : Event) (state next : State) (sound : Sound state)
    (happens : step event state = some next) : Sound next := by
  rcases step_cases happens with rfl | ⟨key, config, loaded, ready, _, started⟩ |
    ⟨request, _, stopped⟩ | ⟨_, rfl⟩ | ⟨number, task, _, taken⟩
  · exact sound
  · exact sound.start started
  · obtain ⟨key, found, _, rfl⟩ := stop_ok stopped
    refine sound.of_subset (fun other active there => ?_)
    by_cases same : other = key
    · rw [same, Table.get?_erase_self] at there
      cases there
    · rwa [Table.get?_erase_of_ne _ same] at there
  · exact sound.of_subset (fun other active there => by cases there)
  · exact sound.of_subset (fun other active there => taken.frame.1 ▸ there)

theorem Sound.idle : Sound State.idle where
  aligned key active there := by cases there
  apart one two first second here := by cases here

theorem fits_24 : 24 ≤ 32 := by decide

theorem fits_16 : 16 ≤ 32 := by decide

def officeNet : Ipv4Net where
  addr := .ofOctets 10 1 0 1
  prefixLen := 24
  prefixLen_le := fits_24

def homeNet : Ipv4Net where
  addr := .ofOctets 10 2 0 1
  prefixLen := 24
  prefixLen_le := fits_24

/-- A network that contains the first one. -/
def campusNet : Ipv4Net where
  addr := .ofOctets 10 1 0 200
  prefixLen := 16
  prefixLen_le := fits_16

/-- A configuration with nothing but an address. -/
def networkAt (address : Ipv4Net) : Except String Config :=
  .ok { interface := { address := address } }

/-- Two networks that are up, of which one is put up again, and a third that shares addresses. -/
def twoTunnels : List Event :=
  [.start "a" "a" (networkAt officeNet) (.ok ()),
    .start "b" "b" (networkAt homeNet) (.ok ()),
    .restartDown 0 true,
    .start "c" "c" (networkAt campusNet) (.ok ()),
    .restartUp 0 true]

theorem twoTunnels_isSome : (Runs.run step twoTunnels State.idle).isSome = true := by
  decide

/-- A tunnel is stopped while its interface is there, or when its task has ended. -/
def HasInterface (state : State) (number : Nat) : Prop :=
  ∀ task ∈ state.tasks.get? number,
    task.phase = .ended ∨ state.interfaces.get? task.ifName = some number

/-- Stops do not come between the two halves of a restart. -/
def Steady : Event → State → Prop
  | .stop request, state =>
      ∀ target ∈ (stopTarget request state).toOption, HasInterface state target.2.task
  | .stopAll, state => ∀ row ∈ state.active.rows, HasInterface state row.2.task
  | .restartDown number _, state => ∀ task ∈ state.tasks.get? number, task.stopRequested = false
  | _, _ => True

/-- Which tasks there are for which entries, and whose the interfaces are. -/
structure Owned (state : State) : Prop where
  numbered : ∀ number task, state.tasks.get? number = some task → number < state.nextTask
  listed : ∀ key active, state.active.get? key = some active →
    ∃ task, state.tasks.get? active.task = some task ∧ task.ifName = active.ifName ∧
      task.stopRequested = false
  known : ∀ number task, state.tasks.get? number = some task → task.stopRequested = false →
    ∃ key active, state.active.get? key = some active ∧ active.task = number
  own : ∀ one two first second, state.active.get? one = some first →
    state.active.get? two = some second → first.task = second.task → one = two
  held : ∀ number task, state.tasks.get? number = some task →
    task.phase = .supervising ∨ task.phase ≠ .ended ∧ task.stopRequested = true →
    state.interfaces.get? task.ifName = some number
  single : ∀ one two first second, state.tasks.get? one = some first →
    state.tasks.get? two = some second → first.phase ≠ .ended → second.phase ≠ .ended →
    first.ifName = second.ifName → one = two

theorem Owned.idle : Owned State.idle where
  numbered number task there := by cases there
  listed key active there := by cases there
  known number task there := by cases there
  own one two first second here := by cases here
  held number task there := by cases there
  single one two first second here := by cases here

/-- No task that is still there has the name that a plan has chosen. -/
theorem Owned.fresh (owned : Owned state) {read : Config} {ifName : String}
    (planned : planInterface read state.limits = .ok ifName)
    (free : state.interfaces.get? ifName = none) {number : Nat} {task : Task}
    (there : state.tasks.get? number = some task) (alive : task.phase ≠ .ended) :
    task.ifName ≠ ifName := by
  intro same
  cases stopped : task.stopRequested with
  | true =>
      have holds := owned.held number task there (.inr ⟨alive, stopped⟩)
      rw [same, free] at holds
      cases holds
  | false =>
      obtain ⟨key, active, entry, number_⟩ := owned.known number task there stopped
      obtain ⟨task', there', name, _⟩ := owned.listed key active entry
      rw [number_, there] at there'
      cases there'
      have used : ifName ∈ state.limits.usedIfNames :=
        List.mem_map.mpr ⟨_, Table.get?_eq_some.mp entry, name.symm.trans same⟩
      exact (planInterface_ok planned).1 used

theorem Owned.start (owned : Owned state)
    (started : start key config loaded ready state = .ok next) : Owned next := by
  obtain ⟨read, ifName, _, absent, planned, free, rfl⟩ := start_ok started
  have older : ∀ number task, state.tasks.get? number = some task → number ≠ state.nextTask :=
    fun number task there => Nat.ne_of_lt (owned.numbered number task there)
  constructor
  · intro number task there
    simp only [Table.get?_insert] at there
    split at there
    · rename_i new
      rw [new]
      exact Nat.lt_succ_self _
    · exact (owned.numbered number task there).trans (Nat.lt_succ_self _)
  · intro other active there
    simp only [Table.get?_insert] at there
    split at there
    · cases there
      exact ⟨_, Table.get?_insert_self _ _ _, rfl, rfl⟩
    · obtain ⟨task, found, name, open_⟩ := owned.listed other active there
      refine ⟨task, ?_, name, open_⟩
      exact (Table.get?_insert_of_ne _ (older _ _ found) _).trans found
  · intro number task there open_
    simp only [Table.get?_insert] at there
    split at there
    · rename_i new
      exact ⟨key, _, Table.get?_insert_self _ _ _, new.symm⟩
    · obtain ⟨other, active, entry, number_⟩ := owned.known number task there open_
      have apart : other ≠ key := by
        intro same
        rw [same, absent] at entry
        cases entry
      exact ⟨other, active, (Table.get?_insert_of_ne _ apart _).trans entry, number_⟩
  · intro one two first second here there same
    simp only [Table.get?_insert] at here there
    split at here
    · rename_i new
      cases here
      split at there
      · rename_i new'
        exact new.trans new'.symm
      · obtain ⟨task, found, _⟩ := owned.listed two second there
        exact absurd same.symm (older _ _ found)
    · split at there
      · cases there
        obtain ⟨task, found, _⟩ := owned.listed one first here
        exact absurd same (older _ _ found)
      · exact owned.own one two first second here there same
  · intro number task there holds
    simp only [Table.get?_insert] at there ⊢
    split at there
    · rename_i new
      cases there
      rw [if_pos rfl, new]
    · have alive : task.phase ≠ .ended := by
        rcases holds with running | ⟨alive, _⟩
        · rw [running]
          decide
        · exact alive
      rw [if_neg (owned.fresh planned free there alive)]
      exact owned.held number task there holds
  · intro one two first second here there alive alive' same
    simp only [Table.get?_insert] at here there
    split at here
    · rename_i new
      cases here
      split at there
      · rename_i new'
        exact new.trans new'.symm
      · exact absurd same.symm (owned.fresh planned free there alive')
    · split at there
      · cases there
        exact absurd same (owned.fresh planned free here alive)
      · exact owned.single one two first second here there alive alive' same

/-- Entries go, and some tasks are asked to stop, those of the entries that go. -/
theorem Owned.asked (owned : Owned state) {asked : Nat → Prop} {change : Nat → Task → Task}
    (tasks : ∀ number, next.tasks.get? number = (state.tasks.get? number).map (change number))
    (changed : ∀ number task, (change number task).ifName = task.ifName ∧
      (change number task).phase = task.phase ∧
      ((change number task).stopRequested = false ↔
        task.stopRequested = false ∧ ¬ asked number))
    (kept : ∀ key active, next.active.get? key = some active ↔
      state.active.get? key = some active ∧ ¬ asked active.task)
    (has : ∀ number, asked number → HasInterface state number)
    (interfaces : next.interfaces = state.interfaces) (count : next.nextTask = state.nextTask) :
    Owned next := by
  have before : ∀ number task, next.tasks.get? number = some task →
      ∃ old, state.tasks.get? number = some old ∧ task = change number old := by
    intro number task there
    rw [tasks] at there
    obtain ⟨old, found, same⟩ := Option.map_eq_some_iff.mp there
    exact ⟨old, found, same.symm⟩
  constructor
  · intro number task there
    obtain ⟨old, found, _⟩ := before number task there
    rw [count]
    exact owned.numbered number old found
  · intro key active there
    obtain ⟨entry, open_⟩ := (kept key active).mp there
    obtain ⟨task, found, name, unasked⟩ := owned.listed key active entry
    obtain ⟨name', _, asked'⟩ := changed active.task task
    refine ⟨change active.task task, ?_, name'.trans name, asked'.mpr ⟨unasked, open_⟩⟩
    rw [tasks, found]
    rfl
  · intro number task there open_
    obtain ⟨old, found, rfl⟩ := before number task there
    obtain ⟨unasked, remains⟩ := (changed number old).2.2.mp open_
    obtain ⟨key, active, entry, number_⟩ := owned.known number old found unasked
    exact ⟨key, active, (kept key active).mpr ⟨entry, number_ ▸ remains⟩, number_⟩
  · intro one two first second here there same
    exact owned.own one two first second ((kept one first).mp here).1 ((kept two second).mp there).1
      same
  · intro number task there holds
    obtain ⟨old, found, rfl⟩ := before number task there
    obtain ⟨name, phase, open_⟩ := changed number old
    rw [name, interfaces]
    rw [phase] at holds
    rcases holds with running | ⟨alive, stopped⟩
    · exact owned.held number old found (.inl running)
    · cases unasked : old.stopRequested with
      | true => exact owned.held number old found (.inr ⟨alive, unasked⟩)
      | false =>
          by_cases now : asked number
          · exact (has number now old found).resolve_left alive
          · rw [open_.mpr ⟨unasked, now⟩] at stopped
            cases stopped
  · intro one two first second here there alive alive' same
    obtain ⟨old, found, rfl⟩ := before one first here
    obtain ⟨old', found', rfl⟩ := before two second there
    rw [(changed one old).2.1] at alive
    rw [(changed two old').2.1] at alive'
    rw [(changed one old).1, (changed two old').1] at same
    exact owned.single one two old old' found found' alive alive' same

theorem Owned.stop (owned : Owned state) {request : Option (String × String)}
    (steady : Steady (.stop request) state) (stopped : stop request state = .ok next) :
    Owned next := by
  obtain ⟨key, found, target, rfl⟩ := stop_ok stopped
  have entry := stopTarget_ok target
  have has : HasInterface state found.task := steady (key, found) (by rw [target]; rfl)
  refine @Owned.asked _ _ owned (· = found.task)
    (fun number task => if number = found.task then task.requestStop else task)
    (fun number => ?_) (fun number task => ?_) (fun other active => ?_) (fun number asked => ?_)
    rfl rfl
  · rw [Table.get?_update]
    by_cases same : number = found.task
    · simp [same]
    · simp [same]
  · by_cases same : number = found.task
    · simp [same, Task.requestStop]
    · simp [same]
  · rw [Table.get?_erase]
    by_cases same : other = key
    · rw [if_pos same, same]
      constructor
      · intro impossible
        cases impossible
      · rintro ⟨there, apart⟩
        rw [entry] at there
        cases there
        exact absurd rfl apart
    · rw [if_neg same]
      refine ⟨fun there => ⟨there, fun task => same ?_⟩, And.left⟩
      exact owned.own other key active found there entry task
  · rw [asked]
    exact has

theorem Owned.stopAll (owned : Owned state) (steady : Steady .stopAll state) :
    Owned (stopAll state) := by
  refine @Owned.asked _ _ owned (fun number => ∃ row ∈ state.active.rows, row.2.task = number)
    (fun number task =>
      if state.active.rows.any (fun row => row.2.task = number) then task.requestStop else task)
    (fun number => Table.get?_mapRows _ _ _) (fun number task => ?_) (fun other active => ?_)
    (fun number asked => ?_) rfl rfl
  · have any : state.active.rows.any (fun row => row.2.task = number) = true ↔
        ∃ row ∈ state.active.rows, row.2.task = number := by
      simp
    by_cases asked : ∃ row ∈ state.active.rows, row.2.task = number
    · rw [if_pos (any.mpr asked)]
      exact ⟨rfl, rfl, by simp [Task.requestStop, asked]⟩
    · rw [if_neg (fun yes => asked (any.mp yes))]
      exact ⟨rfl, rfl, by simp [asked]⟩
  · refine ⟨fun impossible => ?_, fun both => ?_⟩
    · cases impossible
    · exact absurd ⟨_, Table.get?_eq_some.mp both.1, rfl⟩ both.2
  · obtain ⟨row, member, same⟩ := asked
    rw [← same]
    exact steady row member

/-- A task goes on, and touches no interface but the one of its name. -/
theorem Owned.enter (owned : Owned state) {number : Nat} {task : Task} {phase : Phase}
    (found : state.tasks.get? number = some task) (alive : task.phase ≠ .ended)
    (active : next.active = state.active) (count : next.nextTask = state.nextTask)
    (tasks : next.tasks = state.tasks.update number (Task.enter phase))
    (elsewhere : ∀ name, name ≠ task.ifName →
      next.interfaces.get? name = state.interfaces.get? name)
    (holds : phase = .supervising ∨ phase ≠ .ended ∧ task.stopRequested = true →
      next.interfaces.get? task.ifName = some number) : Owned next := by
  have self : next.tasks.get? number = some (task.enter phase) := by
    rw [tasks, Table.get?_update_self, found]
    rfl
  have others : ∀ other, other ≠ number → next.tasks.get? other = state.tasks.get? other := by
    intro other apart
    rw [tasks]
    exact Table.get?_update_of_ne _ apart _
  have before : ∀ other later, next.tasks.get? other = some later →
      ∃ old, state.tasks.get? other = some old ∧ later.ifName = old.ifName ∧
        later.stopRequested = old.stopRequested ∧
        (later.phase ≠ .ended → old.phase ≠ .ended) := by
    intro other later there
    by_cases same : other = number
    · rw [same, self] at there
      cases there
      exact ⟨task, same ▸ found, rfl, rfl, fun _ => alive⟩
    · rw [others other same] at there
      exact ⟨later, there, rfl, rfl, id⟩
  constructor
  · intro other later there
    obtain ⟨old, found', _⟩ := before other later there
    rw [count]
    exact owned.numbered other old found'
  · intro key entry there
    rw [active] at there
    obtain ⟨old, found', name, open_⟩ := owned.listed key entry there
    by_cases same : entry.task = number
    · rw [same, found] at found'
      cases found'
      exact ⟨task.enter phase, same ▸ self, name, open_⟩
    · exact ⟨old, (others _ same).trans found', name, open_⟩
  · intro other later there open_
    obtain ⟨old, found', _, stopped, _⟩ := before other later there
    obtain ⟨key, entry, listed, number_⟩ := owned.known other old found' (stopped ▸ open_)
    exact ⟨key, entry, active ▸ listed, number_⟩
  · rw [active]
    exact owned.own
  · intro other later there holds'
    by_cases same : other = number
    · rw [same, self] at there
      cases there
      rw [same]
      exact holds holds'
    · rw [others other same] at there
      have running : later.phase ≠ .ended := by
        rcases holds' with supervising | ⟨running, _⟩
        · rw [supervising]
          decide
        · exact running
      have apart : later.ifName ≠ task.ifName :=
        fun name => same (owned.single other number later task there found running alive name)
      rw [elsewhere _ apart]
      exact owned.held other later there holds'
  · intro one two first second here there alive' alive'' same
    obtain ⟨old, found', name, _, lives⟩ := before one first here
    obtain ⟨old', found'', name', _, lives'⟩ := before two second there
    rw [name, name'] at same
    exact owned.single one two old old' found' found'' (lives alive') (lives' alive'') same

theorem removeInterface_elsewhere (task : Task) (works : Bool) {name : String}
    (apart : name ≠ task.ifName) :
    (removeInterface task.ifName works state).interfaces.get? name =
      state.interfaces.get? name := by
  cases works with
  | false => rfl
  | true => exact Table.get?_erase_of_ne _ apart

theorem Owned.task (owned : Owned state) {number : Nat} {task : Task} {event : Event}
    (found : state.tasks.get? number = some task)
    (taken : TaskStep state number task event next) (steady : Steady event state) :
    Owned next := by
  obtain ⟨active, count, _⟩ := taken.frame
  cases taken with
  | down works phase =>
      have unasked := steady task found
      refine owned.enter found (by rw [phase]; decide) active count rfl
        (fun name apart => removeInterface_elsewhere task works apart) (fun impossible => ?_)
      rw [unasked] at impossible
      cases works <;> simp at impossible
  | up phase free =>
      refine owned.enter found (by rw [phase]; decide) active count rfl
        (fun name apart => Table.get?_insert_of_ne _ apart _) (fun _ => ?_)
      exact Table.get?_insert_self _ _ _
  | failed works phase =>
      refine owned.enter found (by rw [phase]; decide) active count rfl (fun _ _ => rfl)
        (fun holds => ?_)
      rcases holds with impossible | ⟨_, stopped⟩
      · cases impossible
      · exact owned.held number task found (.inr ⟨by rw [phase]; decide, stopped⟩)
  | leave phase =>
      refine owned.enter found (by rw [phase]; decide) active count rfl (fun _ _ => rfl)
        (fun _ => ?_)
      exact owned.held number task found (.inl phase)
  | tearDown works phase =>
      refine owned.enter found (by rw [phase]; decide) active count rfl
        (fun name apart => removeInterface_elsewhere task works apart) (fun impossible => ?_)
      rcases impossible with no | ⟨no, _⟩
      · cases no
      · exact absurd rfl no

theorem Owned.step (event : Event) (state next : State) (owned : Owned state)
    (steady : Steady event state) (happens : step event state = some next) : Owned next := by
  rcases step_cases happens with rfl | ⟨key, config, loaded, ready, _, started⟩ |
    ⟨request, rfl, stopped⟩ | ⟨rfl, rfl⟩ | ⟨number, task, found, taken⟩
  · exact owned
  · exact owned.start started
  · exact owned.stop steady stopped
  · exact owned.stopAll steady
  · exact owned.task found taken steady

instance (state : State) (number : Nat) : Decidable (HasInterface state number) := by
  unfold HasInterface
  infer_instance

instance (event : Event) (state : State) : Decidable (Steady event state) := by
  cases event <;> unfold Steady <;> infer_instance

/-- The second network is stopped and cleaned up while the first is put up again. -/
def steadyRun : List Event :=
  [.start "a" "a" (networkAt officeNet) (.ok ()),
    .start "b" "b" (networkAt homeNet) (.ok ()),
    .restartDown 0 true, .stop (some ("b", "b")), .leave 1, .restartUp 0 true, .tearDown 1 true]

theorem steadyRun_isSome : (Runs.run step steadyRun State.idle).isSome = true := by
  decide

/-- A stop in the middle of a restart: the interface of the second network is deleted by the
clean-up of the first, which has had the same name. -/
example :
    ((Runs.run step
      [.start "a" "a" (networkAt officeNet) (.ok ()),
        .restartDown 0 true, .stop (some ("a", "a")),
        .start "b" "b" (networkAt homeNet) (.ok ()),
        .restartUp 0 true, .tearDown 0 true] State.idle).map
      (fun state => (state.active.get? "b").map (fun active =>
        state.interfaces.get? active.ifName))) = some (some none) := by
  decide

end Daemon

end PeerCove
