/-
Module: PeerCove.Library.Fallible
Layer: Library
Purpose: What the success of a chain of fallible steps says about each of them.
Trusted boundary: none
Main exports: Fallible.refuseIf, Fallible.bind_ok, Fallible.mapM_ok, Fallible.forall₂_exists,
  Fallible.forM_ok
-/
import Mathlib.Data.List.Forall2

namespace Fallible

variable {ε α β : Type}

/-- Fail with `error` when `bad` holds. -/
def refuseIf (bad : Prop) [Decidable bad] (error : ε) : Except ε Unit :=
  if bad then .error error else .ok ()

@[simp] theorem refuseIf_ok {bad : Prop} [Decidable bad] {error : ε} {done : Unit} :
    refuseIf bad error = .ok done ↔ ¬ bad := by
  by_cases h : bad
  · simp [refuseIf, h]
  · simp [refuseIf, h]

/-- A chain succeeds when its first step does and the rest does on that result. -/
@[simp] theorem bind_ok {first : Except ε α} {next : α → Except ε β} {result : β} :
    first >>= next = .ok result ↔ ∃ value, first = .ok value ∧ next value = .ok result := by
  cases first with
  | error message => simp [bind, Except.bind]
  | ok value => simp [bind, Except.bind]

/-- A step without a result succeeds in one way. -/
@[simp] theorem exists_done {step : Except ε Unit} :
    (∃ done, step = .ok done) ↔ step = .ok () := by
  constructor
  · intro h
    obtain ⟨⟨⟩, done⟩ := h
    exact done
  · intro done
    exact ⟨(), done⟩

@[simp] theorem pure_ok {value result : α} :
    (pure value : Except ε α) = .ok result ↔ value = result := by
  simp [pure, Except.pure]

/-- A fallible map succeeds when it succeeds on each element. -/
theorem mapM_ok {f : α → Except ε β} {values : List α} {results : List β} :
    values.mapM f = .ok results ↔
      List.Forall₂ (fun value result => f value = .ok result) values results := by
  induction values generalizing results with
  | nil =>
      rw [List.mapM_nil, pure_ok, List.forall₂_nil_left_iff, eq_comm]
  | cons value rest ih =>
      rw [List.mapM_cons, bind_ok]
      constructor
      · rintro ⟨head, here, later⟩
        obtain ⟨tail, there, made⟩ := bind_ok.mp later
        obtain rfl := pure_ok.mp made
        exact .cons here (ih.mp there)
      · rintro (_ | ⟨here, there⟩)
        exact ⟨_, here, bind_ok.mpr ⟨_, ih.mpr there, rfl⟩⟩

/-- Where two lists are related element by element, every element has its partner. -/
theorem ok_of_mem {related : α → β → Prop} {values : List α} {results : List β}
    (each : List.Forall₂ related values results) {value : α} (member : value ∈ values) :
    ∃ result ∈ results, related value result := by
  induction each with
  | nil => cases member
  | cons here rest ih =>
      rcases List.mem_cons.mp member with rfl | member
      · exact ⟨_, List.mem_cons_self, here⟩
      · obtain ⟨result, listed, made⟩ := ih member
        exact ⟨result, List.mem_cons_of_mem _ listed, made⟩

/-- And the other way round. -/
theorem of_mem_results {related : α → β → Prop} {values : List α} {results : List β}
    (each : List.Forall₂ related values results) {result : β} (member : result ∈ results) :
    ∃ value ∈ values, related value result :=
  ok_of_mem each.flip member

/-- A fallible map has results exactly when every element has one. -/
theorem forall₂_exists {f : α → Except ε β} {values : List α} :
    (∃ results, List.Forall₂ (fun value result => f value = .ok result) values results) ↔
      ∀ value ∈ values, ∃ result, f value = .ok result := by
  constructor
  · rintro ⟨results, each⟩ value member
    obtain ⟨result, _, made⟩ := ok_of_mem each member
    exact ⟨result, made⟩
  · intro each
    induction values with
    | nil => exact ⟨[], .nil⟩
    | cons value rest ih =>
        obtain ⟨result, here⟩ := each value List.mem_cons_self
        obtain ⟨results, there⟩ :=
          ih (fun other member => each other (List.mem_cons_of_mem _ member))
        exact ⟨result :: results, .cons here there⟩

/-- A fallible loop succeeds when its body does on each element. -/
theorem forM_ok {f : α → Except ε Unit} {values : List α} {done : Unit} :
    values.forM f = .ok done ↔ ∀ value ∈ values, f value = .ok () := by
  induction values with
  | nil => simp [List.forM, pure, Except.pure]
  | cons value rest ih =>
      have unfolded : (value :: rest).forM f = f value >>= fun _ => rest.forM f := rfl
      rw [unfolded, bind_ok, List.forall_mem_cons, ih]
      constructor
      · rintro ⟨_, here, there⟩
        exact ⟨here, there⟩
      · rintro ⟨here, there⟩
        exact ⟨(), here, there⟩

end Fallible
