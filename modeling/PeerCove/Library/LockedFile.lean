/-
Module: PeerCove.Library.LockedFile
Layer: Library
Purpose: Processes that read a file without its lock, prepare an edit from what they read, and carry
  the edit out under the lock.  Where every edit is the one that the file calls for when the lock is
  taken, the processes leave what they would leave one after the other.
Trusted boundary: none
Main exports: LockedFile.Protocol, LockedFile.step, LockedFile.Prepared, LockedFile.inTurn,
  LockedFile.serializable
-/
import PeerCove.Library.Runs
import Mathlib.Data.List.Nodup
import Mathlib.Logic.Function.Basic

namespace LockedFile

/-- How the operations on a file work.  Before the lock an operation looks at the file and either
answers or makes a plan; under the lock the plan is carried out on the file as it is then. -/
structure Protocol (ω φ π ρ : Type) where
  prepare : ω → φ → ρ ⊕ π
  edit : π → φ → ρ × Option φ

/-- How far a process has come. -/
inductive Stage (φ π ρ : Type) where
  | waiting
  | planned (plan : π)
  /-- It holds the lock, with its answer and what it is about to write. -/
  | holding (result : ρ) (write : Option φ)
  | finished (result : ρ)
deriving DecidableEq

structure State (ι φ π ρ : Type) where
  file : φ
  holder : Option ι := none
  stage : ι → Stage φ π ρ := fun _ => .waiting

/-- The steps of a process: the read, the lock with the read under it, and the write that ends with
the release of the lock. -/
inductive Event (ι : Type) where
  | read (process : ι)
  | acquire (process : ι)
  | release (process : ι)
deriving Repr, DecidableEq

variable {ι ω φ π ρ : Type} [DecidableEq ι]

/-- One operation when nobody interferes. -/
def Protocol.alone (protocol : Protocol ω φ π ρ) (op : ω) (file : φ) : ρ × φ :=
  match protocol.prepare op file with
  | .inl result => (result, file)
  | .inr plan => ((protocol.edit plan file).1, (protocol.edit plan file).2.getD file)

/-- The operations of some processes one after the other. -/
def inTurn (protocol : Protocol ω φ π ρ) (ops : ι → ω) : List ι → φ → List (ι × ρ) × φ
  | [], file => ([], file)
  | process :: rest, file =>
      let (result, file) := protocol.alone (ops process) file
      let (results, file) := inTurn protocol ops rest file
      ((process, result) :: results, file)

def State.set (state : State ι φ π ρ) (process : ι) (stage : Stage φ π ρ) : State ι φ π ρ :=
  { state with stage := Function.update state.stage process stage }

/-- One step, where it can happen. -/
def step (protocol : Protocol ω φ π ρ) (ops : ι → ω) (event : Event ι) (state : State ι φ π ρ) :
    Option (State ι φ π ρ) :=
  match event with
  | .read process => match state.stage process with
    | .waiting => match protocol.prepare (ops process) state.file with
      | .inl result => some (state.set process (.finished result))
      | .inr plan => some (state.set process (.planned plan))
    | _ => none
  | .acquire process => match state.stage process, state.holder with
    | .planned plan, none =>
        let (result, write) := protocol.edit plan state.file
        some { state.set process (.holding result write) with holder := some process }
    | _, _ => none
  | .release process => match state.stage process with
    | .holding result write =>
        some { state.set process (.finished result) with
          file := write.getD state.file
          holder := none }
    | _ => none

/-- The plan with which a process takes the lock is the one it would make of the file now. -/
def Prepared (protocol : Protocol ω φ π ρ) (ops : ι → ω) (event : Event ι)
    (state : State ι φ π ρ) : Prop :=
  match event with
  | .acquire process => match state.stage process with
    | .planned plan => protocol.prepare (ops process) state.file = .inr plan
    | _ => True
  | _ => True

instance decidablePrepared [DecidableEq π] [DecidableEq ρ] (protocol : Protocol ω φ π ρ)
    (ops : ι → ω) : ∀ (event : Event ι) (state : State ι φ π ρ),
      Decidable (Prepared protocol ops event state)
  | .read _, _ | .release _, _ => isTrue trivial
  | .acquire process, state =>
      match stage : state.stage process with
      | .planned plan =>
          decidable_of_iff (protocol.prepare (ops process) state.file = .inr plan)
            (by simp only [Prepared, stage])
      | .waiting | .holding _ _ | .finished _ => isTrue (by simp only [Prepared, stage])

variable {protocol : Protocol ω φ π ρ} {ops : ι → ω}

/-- What a step can do. -/
theorem step_cases {event : Event ι} {state next : State ι φ π ρ}
    (happens : step protocol ops event state = some next) :
    (∃ process result, event = .read process ∧ state.stage process = .waiting ∧
      protocol.prepare (ops process) state.file = .inl result ∧
      next = state.set process (.finished result)) ∨
    (∃ process plan, event = .read process ∧ state.stage process = .waiting ∧
      protocol.prepare (ops process) state.file = .inr plan ∧
      next = state.set process (.planned plan)) ∨
    (∃ process plan, event = .acquire process ∧ state.stage process = .planned plan ∧
      state.holder = none ∧
      next = { state.set process (.holding (protocol.edit plan state.file).1
        (protocol.edit plan state.file).2) with holder := some process }) ∨
    (∃ process result write, event = .release process ∧
      state.stage process = .holding result write ∧
      next = { state.set process (.finished result) with
        file := write.getD state.file
        holder := none }) := by
  cases event with
  | read process =>
      rw [step] at happens
      split at happens
      · rename_i waits
        split at happens
        · rename_i result answers
          cases happens
          exact .inl ⟨process, result, rfl, waits, answers, rfl⟩
        · rename_i plan plans
          cases happens
          exact .inr (.inl ⟨process, plan, rfl, waits, plans, rfl⟩)
      · cases happens
  | acquire process =>
      rw [step] at happens
      split at happens
      · rename_i plan plans free
        cases happens
        exact .inr (.inr (.inl ⟨process, plan, rfl, plans, free, rfl⟩))
      · cases happens
  | release process =>
      rw [step] at happens
      split at happens
      · rename_i result write holds
        cases happens
        exact .inr (.inr (.inr ⟨process, result, write, rfl, holds, rfl⟩))
      · cases happens

omit [DecidableEq ι] in
theorem inTurn_append (one two : List ι) (file : φ) :
    inTurn protocol ops (one ++ two) file =
      ((inTurn protocol ops one file).1 ++
          (inTurn protocol ops two (inTurn protocol ops one file).2).1,
        (inTurn protocol ops two (inTurn protocol ops one file).2).2) := by
  induction one generalizing file with
  | nil => rfl
  | cons process rest ih => simp only [List.cons_append, inTurn, ih]

omit [DecidableEq ι] in
theorem inTurn_processes (protocol : Protocol ω φ π ρ) (ops : ι → ω) (order : List ι) (file : φ) :
    (inTurn protocol ops order file).1.map Prod.fst = order := by
  induction order generalizing file with
  | nil => rfl
  | cons process rest ih => simp only [inTurn, List.map_cons, ih]

/-- The file is what the finished processes leave one after the other, with their results, and the
lock is held by one process at most, whose edit is the one the file calls for. -/
structure Serial (protocol : Protocol ω φ π ρ) (ops : ι → ω) (start : φ) (order : List ι)
    (state : State ι φ π ρ) : Prop where
  once : order.Nodup
  file : (inTurn protocol ops order start).2 = state.file
  results : ∀ entry ∈ (inTurn protocol ops order start).1,
    state.stage entry.1 = .finished entry.2
  listed : ∀ process result, state.stage process = .finished result → process ∈ order
  exclusive : ∀ process result write, state.stage process = .holding result write →
    state.holder = some process ∧
      protocol.alone (ops process) state.file = (result, write.getD state.file)

omit [DecidableEq ι] in
/-- The processes in the order have finished. -/
theorem Serial.finished {start : φ} {order : List ι} {state : State ι φ π ρ}
    (serial : Serial protocol ops start order state) {process : ι} (listed : process ∈ order) :
    ∃ result, state.stage process = .finished result := by
  rw [← inTurn_processes protocol ops order start] at listed
  rcases List.mem_map.mp listed with ⟨entry, member, rfl⟩
  exact ⟨entry.2, serial.results entry member⟩

/-- A process that finishes with the answer and the file of its operation alone comes last. -/
theorem Serial.finish {start : φ} {order : List ι} {state : State ι φ π ρ}
    (serial : Serial protocol ops start order state) {process : ι} {result : ρ} {file : φ}
    {holder : Option ι}
    (busy : ∀ result, state.stage process ≠ .finished result)
    (done : protocol.alone (ops process) state.file = (result, file))
    (others : ∀ other result write, other ≠ process →
      state.stage other = .holding result write → holder = some other ∧ file = state.file) :
    Serial protocol ops start (order ++ [process])
      { state.set process (.finished result) with file := file, holder := holder } := by
  have last : inTurn protocol ops [process] state.file = ([(process, result)], file) := by
    simp only [inTurn, done]
  have after (other : ι) (differs : other ≠ process) :
      (state.set process (.finished result)).stage other = state.stage other :=
    Function.update_of_ne differs _ _
  have this : (state.set process (.finished result)).stage process = .finished result :=
    Function.update_self ..
  constructor
  · rw [← List.concat_eq_append]
    apply serial.once.concat
    intro listed
    rcases serial.finished listed with ⟨result, already⟩
    exact busy result already
  · rw [inTurn_append, serial.file, last]
  · intro entry member
    rw [inTurn_append, serial.file, last] at member
    rcases List.mem_append.mp member with earlier | new
    · have stage := serial.results entry earlier
      refine (after entry.1 ?_).trans stage
      intro same
      exact busy entry.2 (same ▸ stage)
    · obtain rfl := List.mem_singleton.mp new
      exact this
  · intro other result' stage
    by_cases same : other = process
    · exact List.mem_append_right _ (List.mem_singleton.mpr same)
    · exact List.mem_append_left _ (serial.listed other result' ((after other same).symm.trans stage))
  · intro other result' write stage
    by_cases same : other = process
    · subst same
      cases this.symm.trans stage
    · have held := (after other same).symm.trans stage
      rcases others other result' write same held with ⟨holds, rfl⟩
      exact ⟨holds, (serial.exclusive other result' write held).2⟩

/-- A process that goes on without finishing leaves the order as it is. -/
theorem Serial.proceed {start : φ} {order : List ι} {state : State ι φ π ρ}
    (serial : Serial protocol ops start order state) {process : ι} {stage : Stage φ π ρ}
    {holder : Option ι} (busy : ∀ result, state.stage process ≠ .finished result)
    (going : ∀ result, stage ≠ .finished result)
    (holding : ∀ result write, stage = .holding result write → holder = some process ∧
      protocol.alone (ops process) state.file = (result, write.getD state.file))
    (others : ∀ other result write, other ≠ process →
      state.stage other = .holding result write → holder = some other) :
    Serial protocol ops start order { state.set process stage with holder := holder } := by
  have after (other : ι) (differs : other ≠ process) :
      (state.set process stage).stage other = state.stage other :=
    Function.update_of_ne differs _ _
  have this : (state.set process stage).stage process = stage := Function.update_self ..
  constructor
  · exact serial.once
  · exact serial.file
  · intro entry member
    have finished := serial.results entry member
    refine (after entry.1 ?_).trans finished
    intro same
    exact busy entry.2 (same ▸ finished)
  · intro other result done
    by_cases same : other = process
    · subst same
      exact absurd (this.symm.trans done) (going result)
    · exact serial.listed other result ((after other same).symm.trans done)
  · intro other result write holds
    by_cases same : other = process
    · subst same
      exact holding result write (this.symm.trans holds)
    · have holds := (after other same).symm.trans holds
      exact ⟨others other result write same holds, (serial.exclusive other result write holds).2⟩

/-- Every step of a run whose plans are up to date keeps the order. -/
theorem serial_step {start : φ} {event : Event ι} {state next : State ι φ π ρ}
    (serial : ∃ order, Serial protocol ops start order state)
    (prepared : Prepared protocol ops event state)
    (happens : step protocol ops event state = some next) :
    ∃ order, Serial protocol ops start order next := by
  rcases serial with ⟨order, serial⟩
  cases event with
  | read process =>
      simp only [step] at happens
      split at happens
      · rename_i waits
        have busy (result : ρ) : state.stage process ≠ .finished result := by
          rw [waits]
          exact nofun
        split at happens
        · rename_i result answers
          cases happens
          refine ⟨order ++ [process], serial.finish busy ?_ ?_⟩
          · rw [Protocol.alone, answers]
          · exact fun other result write _ holds =>
              ⟨(serial.exclusive other result write holds).1, rfl⟩
        · cases happens
          refine ⟨order, serial.proceed busy nofun nofun ?_⟩
          exact fun other result write _ holds => (serial.exclusive other result write holds).1
      · cases happens
  | acquire process =>
      simp only [step] at happens
      split at happens
      · rename_i plan plans free
        cases happens
        simp only [Prepared, plans] at prepared
        refine ⟨order, serial.proceed ?_ nofun ?_ ?_⟩
        · rw [plans]
          exact nofun
        · intro result write same
          cases same
          refine ⟨rfl, ?_⟩
          rw [Protocol.alone, prepared]
        · intro other result write _ holds
          rw [(serial.exclusive other result write holds).1] at free
          cases free
      · cases happens
  | release process =>
      simp only [step] at happens
      split at happens
      · rename_i result write holds
        rcases serial.exclusive process result write holds with ⟨holder, alone⟩
        cases happens
        refine ⟨order ++ [process], serial.finish ?_ alone ?_⟩
        · rw [holds]
          exact nofun
        · intro other result' write' differs holds'
          rw [(serial.exclusive other result' write' holds').1] at holder
          exact absurd (Option.some.inj holder) differs
      · cases happens

/-- When all processes have finished a run whose plans were up to date, they leave the file and the
results that they leave one after the other, in some order. -/
theorem serializable {start : φ} {events : List (Event ι)} {final : State ι φ π ρ}
    (prepared : Runs.Along (step protocol ops) (Prepared protocol ops) events { file := start })
    (reached : Runs.run (step protocol ops) events { file := start } = some final)
    {results : ι → ρ} (finished : ∀ process, final.stage process = .finished (results process)) :
    ∃ order : List ι, order.Nodup ∧ (∀ process, process ∈ order) ∧
      inTurn protocol ops order start = (order.map (fun process => (process, results process)),
        final.file) := by
  have initial : Serial protocol ops start [] { file := start } :=
    { once := List.nodup_nil, file := rfl, results := nofun, listed := nofun, exclusive := nofun }
  have kept : ∃ order, Serial protocol ops start order final := by
    refine Runs.run_invariant (fun state => ∃ order, Serial protocol ops start order state) ?_
      ⟨[], initial⟩ prepared reached
    exact fun event state next serial => serial_step serial
  rcases kept with ⟨order, serial⟩
  refine ⟨order, serial.once, fun process => serial.listed process _ (finished process), ?_⟩
  refine Prod.ext ?_ serial.file
  have same : (inTurn protocol ops order start).1 =
      ((inTurn protocol ops order start).1.map Prod.fst).map
        (fun process => (process, results process)) := by
    rw [List.map_map]
    conv_lhs => rw [← List.map_id (inTurn protocol ops order start).1]
    apply List.map_congr_left
    intro entry member
    have stage := (finished entry.1).symm.trans (serial.results entry member)
    exact Prod.ext rfl (Stage.finished.inj stage).symm
  rw [same, inTurn_processes]

end LockedFile
