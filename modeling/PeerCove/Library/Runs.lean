/-
Module: PeerCove.Library.Runs
Layer: Library
Purpose: Runs of a system whose events are enabled in some states only, and the rule that carries an
  invariant through a run whose events meet a condition.
Trusted boundary: none
Main exports: Runs.run, Runs.Along, Runs.decidableAlong, Runs.run_invariant, Runs.safe_iff_along,
  Runs.fair_safe_iff_along
-/
import Mathlib.Data.List.Basic

namespace Runs

variable {σ ε : Type}

/-- The state after a list of events, when each of them is enabled in its turn. -/
def run (step : ε → σ → Option σ) : List ε → σ → Option σ
  | [], state => some state
  | event :: rest, state => (step event state).bind (run step rest)

/-- Every event of a run meets a condition on it and on the state it happens in. -/
def Along (step : ε → σ → Option σ) (meets : ε → σ → Prop) : List ε → σ → Prop
  | [], _ => True
  | event :: rest, state =>
      meets event state ∧ ∀ next, step event state = some next → Along step meets rest next

variable {step : ε → σ → Option σ} {meets : ε → σ → Prop}

theorem run_cons {event : ε} {rest : List ε} {state final : σ} :
    run step (event :: rest) state = some final ↔
      ∃ next, step event state = some next ∧ run step rest next = some final :=
  Option.bind_eq_some_iff

theorem run_append {one two : List ε} {state final : σ} :
    run step (one ++ two) state = some final ↔
      ∃ middle, run step one state = some middle ∧ run step two middle = some final := by
  induction one generalizing state with
  | nil => simp [run]
  | cons event rest ih =>
      rw [List.cons_append, run_cons]
      constructor
      · intro reached
        rcases reached with ⟨next, happens, reached⟩
        rcases ih.mp reached with ⟨middle, first, second⟩
        exact ⟨middle, run_cons.mpr ⟨next, happens, first⟩, second⟩
      · intro reached
        rcases reached with ⟨middle, first, second⟩
        rcases run_cons.mp first with ⟨next, happens, first⟩
        exact ⟨next, happens, ih.mpr ⟨middle, first, second⟩⟩

/-- Whether a run meets a condition can be computed along it. -/
instance decidableAlong [∀ event state, Decidable (meets event state)] :
    ∀ events state, Decidable (Along step meets events state)
  | [], _ => isTrue trivial
  | event :: rest, state =>
      match happens : step event state with
      | none => decidable_of_iff (meets event state) (by simp [Along, happens])
      | some next =>
          have := decidableAlong rest next
          decidable_of_iff (meets event state ∧ Along step meets rest next)
            (by simp [Along, happens])

/-- Events that meet a condition in every state meet it along every run. -/
theorem along_of_forall {events : List ε} (always : ∀ event ∈ events, ∀ state, meets event state)
    (start : σ) : Along step meets events start := by
  induction events generalizing start with
  | nil => exact trivial
  | cons event rest ih =>
      refine ⟨always event List.mem_cons_self start, fun next _ => ?_⟩
      exact ih (fun other member => always other (List.mem_cons_of_mem _ member)) next

/-- Equivalent conditions hold along the same runs. -/
theorem along_congr {meets' : ε → σ → Prop}
    (same : ∀ event state, meets event state ↔ meets' event state) {events : List ε} {start : σ} :
    Along step meets events start ↔ Along step meets' events start := by
  induction events generalizing start with
  | nil => exact Iff.rfl
  | cons event rest ih =>
      apply and_congr (same event start)
      exact forall_congr' (fun next => imp_congr Iff.rfl ih)

/-- Two conditions met along a run. -/
theorem Along.and {meets' : ε → σ → Prop} {events : List ε} {start : σ}
    (one : Along step meets events start) (two : Along step meets' events start) :
    Along step (fun event state => meets event state ∧ meets' event state) events start := by
  induction events generalizing start with
  | nil => exact trivial
  | cons event rest ih =>
      exact ⟨⟨one.1, two.1⟩, fun next happens => ih (one.2 next happens) (two.2 next happens)⟩

/-- What holds at the start, and is kept by every event that meets the condition, holds at the end
of a run all of whose events do. -/
theorem run_invariant (holds : σ → Prop)
    (keep : ∀ event state next, holds state → meets event state → step event state = some next →
      holds next) {events : List ε} {start final : σ} (base : holds start)
    (fair : Along step meets events start) (reached : run step events start = some final) :
    holds final := by
  induction events generalizing start with
  | nil =>
      cases reached
      exact base
  | cons event rest ih =>
      rcases run_cons.mp reached with ⟨next, happens, reached⟩
      exact ih (keep event start next base fair.1 happens) (fair.2 next happens) reached

/-- What holds at the start and is kept by every event holds at the end of a run. -/
theorem run_keeps (holds : σ → Prop)
    (keep : ∀ event state next, holds state → step event state = some next → holds next)
    {events : List ε} {start final : σ} (base : holds start)
    (reached : run step events start = some final) : holds final := by
  induction events generalizing start with
  | nil =>
      cases reached
      exact base
  | cons event rest ih =>
      rcases run_cons.mp reached with ⟨next, happens, reached⟩
      exact ih (keep event start next base happens) reached

/-- Where the condition says of each fair step from a safe state whether the next one is safe, it
says of a fair run whether all its states are. -/
theorem fair_safe_iff_along (holds safe : σ → Prop) {fair : ε → σ → Prop}
    (keep : ∀ event state next, holds state → fair event state → step event state = some next →
      holds next)
    (exact_ : ∀ event state next, holds state → safe state → fair event state →
      step event state = some next → (safe next ↔ meets event state))
    {events : List ε} {start final : σ} (base : holds start) (first : safe start)
    (fairly : Along step fair events start) (reached : run step events start = some final) :
    (∀ done, done <+: events → ∀ middle, run step done start = some middle → safe middle) ↔
      Along step meets events start := by
  induction events generalizing start with
  | nil =>
      refine ⟨fun _ => trivial, fun _ done isPart middle same => ?_⟩
      rw [List.prefix_nil.mp isPart] at same
      cases same
      exact first
  | cons event rest ih =>
      obtain ⟨next, happens, later⟩ := run_cons.mp reached
      have kept := keep event start next base fairly.1 happens
      have fairLater := fairly.2 next happens
      constructor
      · intro all
        have safeNext : safe next :=
          all [event] (List.prefix_append [event] rest) next (run_cons.mpr ⟨next, happens, rfl⟩)
        refine ⟨(exact_ event start next base first fairly.1 happens).mp safeNext, fun other same => ?_⟩
        cases happens.symm.trans same
        refine (ih kept safeNext fairLater later).mp (fun done isPart middle run_ => ?_)
        exact all (event :: done) (List.cons_prefix_cons.mpr ⟨rfl, isPart⟩) middle
          (run_cons.mpr ⟨next, happens, run_⟩)
      · intro along done isPart middle run_
        have safeNext := (exact_ event start next base first fairly.1 happens).mpr along.1
        cases done with
        | nil =>
            cases run_
            exact first
        | cons head done =>
            obtain ⟨rfl, shorter⟩ := List.cons_prefix_cons.mp isPart
            obtain ⟨other, same, run_⟩ := run_cons.mp run_
            cases happens.symm.trans same
            exact (ih kept safeNext fairLater later).mpr (along.2 next happens) done shorter middle
              run_

/-- The same, where all steps are fair. -/
theorem safe_iff_along (holds safe : σ → Prop)
    (keep : ∀ event state next, holds state → step event state = some next → holds next)
    (exact_ : ∀ event state next, holds state → safe state → step event state = some next →
      (safe next ↔ meets event state))
    {events : List ε} {start final : σ} (base : holds start) (first : safe start)
    (reached : run step events start = some final) :
    (∀ done, done <+: events → ∀ middle, run step done start = some middle → safe middle) ↔
      Along step meets events start :=
  fair_safe_iff_along holds safe
    (fun event state next stays (_ : True) happens => keep event state next stays happens)
    (fun event state next stays here _ happens => exact_ event state next stays here happens)
    base first (along_of_forall (fun _ _ _ => trivial) start) reached

end Runs
