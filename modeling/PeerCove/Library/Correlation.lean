/-
Module: PeerCove.Library.Correlation
Layer: Library
Purpose: Answers put into waiting places: when an answer still to come finds in its place the one
  that asked for it, and when it finds somebody else.
Trusted boundary: none
Main exports: Correlation.Agree, Correlation.handedOut, Correlation.Agree.claim,
  Correlation.Agree.take, Correlation.exists_misdelivered
-/
import Mathlib.Logic.Function.Basic
import Mathlib.Data.List.Basic

namespace Correlation

variable {κ τ : Type}

/-- Wherever an answer is still to come, its place is held by the one that asked for it, or by
nobody. -/
def Agree (waiting : κ → Option τ) (coming : List (τ × κ)) : Prop :=
  ∀ entry ∈ coming, ∀ who, waiting entry.2 = some who → who = entry.1

variable {waiting fewer : κ → Option τ} {coming rest : List (τ × κ)} {who asker : τ} {key : κ}

/-! ### What keeps waiting places and coming answers in agreement -/

theorem agree_nil : Agree waiting [] := by
  intro entry member
  cases member

/-- Fewer answers to come. -/
theorem Agree.subset (agree : Agree waiting coming) (part : ∀ entry ∈ rest, entry ∈ coming) :
    Agree waiting rest :=
  fun entry member => agree entry (part entry member)

/-- Fewer held places. -/
theorem Agree.mono (agree : Agree waiting coming)
    (part : ∀ key who, fewer key = some who → waiting key = some who) : Agree fewer coming :=
  fun entry member who held => agree entry member who (part entry.2 who held)

variable [DecidableEq κ]

/-- A place that no coming answer is for may be taken by a new request. -/
theorem Agree.claim (agree : Agree waiting coming) (fresh : ∀ entry ∈ coming, entry.2 ≠ key) :
    Agree (Function.update waiting key (some asker)) (coming ++ [(asker, key)]) := by
  intro entry member who held
  rcases List.mem_append.mp member with earlier | new
  · rw [Function.update_of_ne (fresh entry earlier)] at held
    exact agree entry earlier who held
  · obtain rfl := List.mem_singleton.mp new
    rw [Function.update_self] at held
    exact (Option.some.inj held).symm

/-- The first answer empties its place. -/
theorem Agree.take (agree : Agree waiting ((asker, key) :: rest)) :
    Agree (Function.update waiting key none) rest := by
  apply (agree.subset (fun entry member => List.mem_cons_of_mem _ member)).mono
  intro other who held
  by_cases same : other = key
  · rw [same, Function.update_self] at held
    cases held
  · rwa [Function.update_of_ne same] at held

/-! ### What happens when they do not agree -/

/-- The pairs of receiver and asker when the coming answers are put into their places in turn. -/
def handedOut (waiting : κ → Option τ) : List (τ × κ) → List (τ × τ)
  | [] => []
  | (asker, key) :: rest =>
      ((waiting key).map (fun who => (who, asker))).toList ++
        handedOut (Function.update waiting key none) rest

/-- A place taken while an earlier answer for it is still to come gets somebody else's answer. -/
theorem exists_misdelivered (held : waiting key = some who) {earlier later : List (τ × κ)}
    (contended : ∃ entry ∈ earlier, entry.2 = key)
    (foreign : ∀ entry ∈ earlier, entry.1 ≠ who) :
    ∃ other, (who, other) ∈ handedOut waiting (earlier ++ later) ∧ other ≠ who := by
  induction earlier generalizing waiting with
  | nil =>
      obtain ⟨entry, member, _⟩ := contended
      cases member
  | cons entry rest ih =>
      obtain ⟨other, place⟩ := entry
      by_cases same : place = key
      · refine ⟨other, ?_, foreign (other, place) List.mem_cons_self⟩
        simp [handedOut, same, held]
      · have contendedLater : ∃ entry ∈ rest, entry.2 = key := by
          obtain ⟨entry, member, hits⟩ := contended
          rcases List.mem_cons.mp member with rfl | member
          · exact absurd hits same
          · exact ⟨entry, member, hits⟩
        have kept : Function.update waiting place none key = some who := by
          rw [Function.update_of_ne (Ne.symm same), held]
        obtain ⟨other, member, differ⟩ := ih kept contendedLater
          (fun entry member => foreign entry (List.mem_cons_of_mem _ member))
        exact ⟨other, List.mem_append_right _ member, differ⟩

end Correlation
