/-
Module: PeerCove.Library.Tasks
Layer: Library
Purpose: Tasks that share a state and take turns: each turn runs one critical section of one task.
  Rules for what holds in every state of every run, whatever the order of the turns.
Trusted boundary: none
Main exports: Tasks.Machine, Tasks.Step, Tasks.Run, Tasks.Run.invariant, Tasks.Run.settled,
  Tasks.execute
-/
import Mathlib.Data.List.Basic
import Mathlib.Data.List.Flatten
import Mathlib.Data.List.Perm.Basic

namespace Tasks

/-- How tasks behave: what one critical section of a task does to the shared state, given its input,
and the tasks that take the place of the task; which tasks may arrive from outside; and what is
left of a task that is cancelled. -/
structure Machine (ι τ σ : Type) where
  advance : ι → τ → σ → σ × List τ
  arrives : τ → Bool
  cancelled : τ → Option (List τ)

/-- The shared state, and the tasks that are not finished. -/
structure System (τ σ : Type) where
  shared : σ
  tasks : List τ

/-- What may happen next. -/
inductive Event (ι τ : Type) where
  | arrive (task : τ)
  | turn (input : ι) (task : τ)
  | cancel (task : τ)

variable {ι τ σ : Type}

/-- One event: a task arrives, takes its turn, or is cancelled. -/
inductive Step (machine : Machine ι τ σ) : System τ σ → Event ι τ → System τ σ → Prop where
  | arrive (state : System τ σ) (task : τ) (allowed : machine.arrives task = true) :
      Step machine state (.arrive task) { state with tasks := state.tasks ++ [task] }
  | turn (state : System τ σ) (input : ι) (task : τ) (before after : List τ)
      (waiting : state.tasks = before ++ task :: after) :
      Step machine state (.turn input task)
        { shared := (machine.advance input task state.shared).1
          tasks := before ++ (machine.advance input task state.shared).2 ++ after }
  | cancel (state : System τ σ) (task : τ) (rest before after : List τ)
      (waiting : state.tasks = before ++ task :: after)
      (left : machine.cancelled task = some rest) :
      Step machine state (.cancel task) { state with tasks := before ++ rest ++ after }

/-- A run from a state, with the states and events it went through, newest first. -/
inductive Run (machine : Machine ι τ σ) (start : System τ σ) :
    List (System τ σ × Event ι τ) → System τ σ → Prop where
  | start : Run machine start [] start
  | step {past : List (System τ σ × Event ι τ)} {state next : System τ σ} {event : Event ι τ}
      (run : Run machine start past state) (step : Step machine state event next) :
      Run machine start ((state, event) :: past) next

/-! ### Executing a script -/

/-- What to do next, with tasks named by their place in the list. -/
inductive Choice (ι τ : Type) where
  | arrive (task : τ)
  | turn (input : ι) (place : Nat)
  | cancel (place : Nat)

/-- The task at a place, with the tasks before and after it. -/
def at? : Nat → List τ → Option (List τ × τ × List τ)
  | _, [] => none
  | 0, task :: after => some ([], task, after)
  | place + 1, first :: tasks =>
      (at? place tasks).map (fun (before, task, after) => (first :: before, task, after))

theorem at?_some {place : Nat} {tasks before after : List τ} {task : τ}
    (found : at? place tasks = some (before, task, after)) : tasks = before ++ task :: after := by
  induction tasks generalizing place before with
  | nil =>
      cases place with
      | zero => cases found
      | succ place => cases found
  | cons first tasks ih =>
      cases place with
      | zero =>
          cases found
          rfl
      | succ place =>
          rcases Option.map_eq_some_iff.mp found with ⟨⟨earlier, other, later⟩, below, same⟩
          cases same
          rw [ih below]
          rfl

/-- The event of a choice and the state after it, where the choice is possible. -/
def choose (machine : Machine ι τ σ) (state : System τ σ) :
    Choice ι τ → Option (Event ι τ × System τ σ)
  | .arrive task =>
      if machine.arrives task then
        some (.arrive task, { state with tasks := state.tasks ++ [task] })
      else none
  | .turn input place =>
      (at? place state.tasks).map (fun (before, task, after) =>
        (.turn input task,
          { shared := (machine.advance input task state.shared).1
            tasks := before ++ (machine.advance input task state.shared).2 ++ after }))
  | .cancel place =>
      (at? place state.tasks).bind (fun (before, task, after) =>
        (machine.cancelled task).map (fun rest =>
          (.cancel task, { state with tasks := before ++ rest ++ after })))

theorem choose_step {machine : Machine ι τ σ} {state next : System τ σ} {choice : Choice ι τ}
    {event : Event ι τ} (chosen : choose machine state choice = some (event, next)) :
    Step machine state event next := by
  cases choice with
  | arrive task =>
      by_cases allowed : machine.arrives task = true
      · rw [choose, if_pos allowed] at chosen
        cases chosen
        exact Step.arrive state task allowed
      · rw [choose, if_neg allowed] at chosen
        cases chosen
  | turn input place =>
      rcases Option.map_eq_some_iff.mp chosen with ⟨⟨before, task, after⟩, found, same⟩
      cases same
      exact Step.turn state input task before after (at?_some found)
  | cancel place =>
      rcases Option.bind_eq_some_iff.mp chosen with ⟨⟨before, task, after⟩, found, chosen⟩
      rcases Option.map_eq_some_iff.mp chosen with ⟨rest, left, same⟩
      cases same
      exact Step.cancel state task rest before after (at?_some found) left

/-- The states and events of a script, newest first, and the state it ends in. -/
def execute (machine : Machine ι τ σ) : List (Choice ι τ) →
    List (System τ σ × Event ι τ) × System τ σ → Option (List (System τ σ × Event ι τ) × System τ σ)
  | [], reached => some reached
  | choice :: script, (past, state) =>
      (choose machine state choice).bind (fun (event, next) =>
        execute machine script ((state, event) :: past, next))

/-- A script that can be executed is a run. -/
theorem Run.execute {machine : Machine ι τ σ} {start state final : System τ σ}
    {past history : List (System τ σ × Event ι τ)} (run : Run machine start past state)
    (script : List (Choice ι τ))
    (done : Tasks.execute machine script (past, state) = some (history, final)) :
    Run machine start history final := by
  induction script generalizing past state with
  | nil =>
      cases done
      exact run
  | cons choice script ih =>
      rcases Option.bind_eq_some_iff.mp done with ⟨⟨event, next⟩, chosen, done⟩
      exact ih (run.step (choose_step chosen)) done

/-! ### Rules -/

/-- A property of the states passed and the state reached holds of a run, when it holds at the
start and every event the run took keeps it. -/
theorem Run.invariant {machine : Machine ι τ σ} {start state : System τ σ}
    {past : List (System τ σ × Event ι τ)}
    {holds : List (System τ σ × Event ι τ) → System τ σ → Prop}
    {fair : List (System τ σ × Event ι τ) → System τ σ → Event ι τ → Prop}
    (run : Run machine start past state) (base : holds [] start)
    (keep : ∀ past state event next, Run machine start past state → holds past state →
      fair past state event → Step machine state event next → holds ((state, event) :: past) next)
    (good : ∀ newer state event older, past = newer ++ (state, event) :: older →
      fair older state event) :
    holds past state := by
  induction run with
  | start => exact base
  | step run step ih =>
      apply keep _ _ _ _ run (ih ?_) (good [] _ _ _ rfl) step
      intro newer state event older split
      exact good (_ :: newer) state event older (by rw [split]; rfl)

/-- A run up to an earlier event. -/
theorem Run.prior {machine : Machine ι τ σ} {start state before : System τ σ}
    {past newer older : List (System τ σ × Event ι τ)} {event : Event ι τ}
    (run : Run machine start past state) (split : past = newer ++ (before, event) :: older) :
    Run machine start older before ∧ ∃ next, Step machine before event next := by
  induction run generalizing newer with
  | start =>
      have empty := congrArg List.length split
      simp at empty
  | step run step ih =>
      cases newer with
      | nil =>
          cases split
          exact ⟨run, _, step⟩
      | cons entry newer =>
          apply ih
          exact (List.cons.inj split).2

/-- The state reached follows from the newest event. -/
theorem Run.last {machine : Machine ι τ σ} {start state before : System τ σ}
    {older : List (System τ σ × Event ι τ)} {event : Event ι τ}
    (run : Run machine start ((before, event) :: older) state) :
    Step machine before event state := by
  cases run with
  | step run step => exact step

/-- The shared state after a turn. -/
theorem Step.shared_of_turn {machine : Machine ι τ σ} {state next : System τ σ} {input : ι}
    {task : τ} (step : Step machine state (.turn input task) next) :
    next.shared = (machine.advance input task state.shared).1 := by
  cases step with
  | turn input task before after waiting => rfl

/-- Who takes a turn is there. -/
theorem Step.mem_of_turn {machine : Machine ι τ σ} {state next : System τ σ} {input : ι} {task : τ}
    (step : Step machine state (.turn input task) next) : task ∈ state.tasks := by
  cases step with
  | turn input task before after waiting =>
      rw [waiting]
      exact List.mem_append_right _ List.mem_cons_self

/-- What every fair event keeps holds after every run of fair events. -/
theorem Run.stable {machine : Machine ι τ σ} {start state : System τ σ}
    {past : List (System τ σ × Event ι τ)} {holds : System τ σ → Prop}
    {fair : System τ σ → Event ι τ → Prop} (run : Run machine start past state)
    (base : holds start)
    (keep : ∀ state event next, holds state → fair state event → Step machine state event next →
      holds next)
    (good : ∀ entry ∈ past, fair entry.1 entry.2) :
    holds state := by
  induction run with
  | start => exact base
  | step run step ih =>
      apply keep _ _ _ _ (good _ List.mem_cons_self) step
      exact ih (fun entry member => good entry (List.mem_cons_of_mem _ member))

/-- Every event of a run is fair, given the run before it. -/
def Throughout (fair : List (System τ σ × Event ι τ) → System τ σ → Event ι τ → Prop) :
    List (System τ σ × Event ι τ) → Prop
  | [] => True
  | (state, event) :: older => fair older state event ∧ Throughout fair older

instance decidableThroughout {fair : List (System τ σ × Event ι τ) → System τ σ → Event ι τ → Prop}
    [∀ older state event, Decidable (fair older state event)] :
    (past : List (System τ σ × Event ι τ)) → Decidable (Throughout fair past)
  | [] => inferInstanceAs (Decidable True)
  | (state, event) :: older =>
      have : Decidable (Throughout fair older) := decidableThroughout older
      inferInstanceAs (Decidable (fair older state event ∧ Throughout fair older))

theorem Throughout.at {fair : List (System τ σ × Event ι τ) → System τ σ → Event ι τ → Prop}
    {past newer older : List (System τ σ × Event ι τ)} {state : System τ σ} {event : Event ι τ}
    (always : Throughout fair past) (split : past = newer ++ (state, event) :: older) :
    fair older state event ∧ Throughout fair older := by
  induction newer generalizing past with
  | nil =>
      rw [split] at always
      exact always
  | cons entry newer ih =>
      rw [split] at always
      exact ih always.2 rfl

/-- What is observed of the shared state along a run, newest first. -/
def observed {β : Type} (f : σ → β) (past : List (System τ σ × Event ι τ)) (state : System τ σ) :
    List β :=
  f state.shared :: past.map (fun entry => f entry.1.shared)

/-- What one turn does to an observation links all observations of a run. -/
theorem Run.observed_chain {β : Type} {machine : Machine ι τ σ} {start state : System τ σ}
    {past : List (System τ σ × Event ι τ)} (run : Run machine start past state) {f : σ → β}
    {related : β → β → Prop} (same : ∀ value, related value value)
    (turn : ∀ input task shared, related (f shared) (f (machine.advance input task shared).1)) :
    (observed f past state).IsChain (fun new old => related old new) := by
  induction run with
  | start => exact List.IsChain.singleton _
  | step run step ih =>
      refine List.IsChain.cons_cons ?_ ih
      cases step with
      | arrive task allowed => exact same _
      | turn input task before after waiting => exact turn input task _
      | cancel task rest before after waiting left => exact same _

/-! ### Duties -/

section Duties

variable {δ : Type} {machine : Machine ι τ σ} {start state : System τ σ}
  {past : List (System τ σ × Event ι τ)}

/-- What an event adds, when only turns do. -/
def inTurn (f : ι → τ → σ → List δ) : System τ σ × Event ι τ → List δ
  | (state, .turn input task) => f input task state.shared
  | (_, .arrive _) => []
  | (_, .cancel _) => []

/-- What the turns of a run add up to. -/
def inTurns (f : ι → τ → σ → List δ) (past : List (System τ σ × Event ι τ)) : List δ :=
  past.flatMap (inTurn f)

theorem inTurns_cons (f : ι → τ → σ → List δ) (entry : System τ σ × Event ι τ)
    (past : List (System τ σ × Event ι τ)) :
    inTurns f (entry :: past) = inTurn f entry ++ inTurns f past :=
  List.flatMap_cons

/-- What is added in two ways in each turn. -/
theorem inTurns_append (f g : ι → τ → σ → List δ) (past : List (System τ σ × Event ι τ)) :
    (inTurns (fun input task shared => f input task shared ++ g input task shared) past).Perm
      (inTurns f past ++ inTurns g past) := by
  have both : inTurns (fun input task shared => f input task shared ++ g input task shared) past =
      past.flatMap (fun entry => inTurn f entry ++ inTurn g entry) := by
    apply List.flatMap_congr
    intro entry member
    rcases entry with ⟨state, event⟩
    cases event with
    | turn input task => rfl
    | arrive task => rfl
    | cancel task => rfl
  rw [both]
  exact (List.flatMap_append_perm past (inTurn f) (inTurn g)).symm

theorem inTurns_flatMap {γ : Type} (f : ι → τ → σ → List δ) (g : δ → List γ)
    (past : List (System τ σ × Event ι τ)) :
    (inTurns f past).flatMap g =
      inTurns (fun input task shared => (f input task shared).flatMap g) past := by
  rw [inTurns, List.flatMap_assoc]
  apply List.flatMap_congr
  intro entry member
  rcases entry with ⟨state, event⟩
  cases event with
  | turn input task => rfl
  | arrive task => rfl
  | cancel task => rfl

theorem inTurns_reverse (f : ι → τ → σ → List δ) (past : List (System τ σ × Event ι τ)) :
    (inTurns f past.reverse).Perm (inTurns f past) :=
  (List.reverse_perm past).flatMap_right _

/-- A log to which every turn adds something. -/
theorem Run.logged (run : Run machine start past state) (log : σ → List δ)
    (adds : ι → τ → σ → List δ)
    (turn : ∀ input task shared,
      log (machine.advance input task shared).1 = log shared ++ adds input task shared) :
    log state.shared = log start.shared ++ inTurns adds past.reverse := by
  induction run with
  | start => exact (List.append_nil _).symm
  | step run step ih =>
      rw [List.reverse_cons, inTurns, List.flatMap_append, ← List.append_assoc]
      change _ = log start.shared ++ inTurns adds _ ++ _
      rw [← ih, List.flatMap_singleton]
      cases step with
      | arrive task allowed => exact (List.append_nil _).symm
      | turn input task before after waiting => exact turn input task _
      | cancel task rest before after waiting left => exact (List.append_nil _).symm

/-- When each turn does or hands on the duties of its task and those that arise in it, and nothing
is cancelled with a duty, each duty that arose has been done once or is a duty of a task. -/
theorem Run.settled (run : Run machine start past state)
    {fair : System τ σ → Event ι τ → Prop} (duties : τ → List δ)
    (arising done : ι → τ → σ → List δ) (idle : start.tasks = [])
    (arrive : ∀ task, machine.arrives task = true → duties task = [])
    (turn : ∀ state input task, fair state (.turn input task) →
      (done input task state.shared ++
          (machine.advance input task state.shared).2.flatMap duties).Perm
        (arising input task state.shared ++ duties task))
    (cancel : ∀ state task rest, fair state (.cancel task) → machine.cancelled task = some rest →
      rest.flatMap duties = duties task)
    (good : ∀ entry ∈ past, fair entry.1 entry.2) :
    (inTurns done past ++ state.tasks.flatMap duties).Perm (inTurns arising past) := by
  induction run with
  | start =>
      rw [idle]
      exact List.Perm.refl []
  | step run step ih =>
      have balanced := ih (fun entry member => good entry (List.mem_cons_of_mem _ member))
      have kept := good _ List.mem_cons_self
      rw [inTurns_cons, inTurns_cons]
      cases step with
      | arrive task allowed =>
          simpa [inTurn, arrive task allowed] using balanced
      | turn input task before after waiting =>
          have moved := turn _ input task kept
          rw [waiting] at balanced
          simp only [List.flatMap_append, List.flatMap_cons] at balanced ⊢
          -- both sides are sums of the same parts
          classical
          rw [List.perm_iff_count] at balanced moved ⊢
          intro duty
          have sum := balanced duty
          have part := moved duty
          simp only [inTurn, List.count_append] at sum part ⊢
          omega
      | cancel task rest before after waiting left =>
          have same := cancel _ task rest kept left
          rw [waiting] at balanced
          simpa [inTurn, same] using balanced

end Duties

end Tasks
