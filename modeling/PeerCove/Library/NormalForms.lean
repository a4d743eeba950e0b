/-
Module: PeerCove.Library.NormalForms
Layer: Library
Purpose: Partial functions that bring values to a normal form: what they make has the form, and what
  has it they leave alone.  Such functions for parts make one for lists, and one for texts that are
  split into parts.
Trusted boundary: none
Main exports: Normalises, Normalises.fixed, Normalises.headed, Normalises.through
-/
import Mathlib.Data.List.Basic

namespace PeerCove

/-- The function makes only values of the form, and leaves those as they are. -/
structure Normalises {α : Type*} (normalise : α → Option α) (Normal : α → Prop) : Prop where
  made : ∀ value result, normalise value = some result → Normal result
  kept : ∀ value, Normal value → normalise value = some value

namespace Normalises

variable {α : Type*} {normalise first : α → Option α} {Normal First : α → Prop}

/-- What the function makes is a fixed point of it. -/
theorem fixed (normalises : Normalises normalise Normal) {value result : α}
    (makes : normalise value = some result) : normalise result = some result :=
  normalises.kept result (normalises.made value result makes)

theorem mapM (normalises : Normalises normalise Normal) :
    Normalises (List.mapM normalise) (fun values => ∀ value ∈ values, Normal value) := by
  constructor
  · intro values
    induction values with
    | nil =>
        intro result makes
        cases makes
        simp
    | cons value rest ih =>
        intro result makes
        simp only [List.mapM_cons, Option.bind_eq_bind, Option.bind_eq_some_iff,
          Option.pure_def, Option.some.injEq] at makes
        obtain ⟨head, isHead, tail, isTail, rfl⟩ := makes
        exact List.forall_mem_cons.mpr ⟨normalises.made value head isHead, ih tail isTail⟩
  · intro values
    induction values with
    | nil => simp
    | cons value rest ih =>
        intro normal
        obtain ⟨here, later⟩ := List.forall_mem_cons.mp normal
        rw [List.mapM_cons, normalises.kept value here, ih later]
        rfl

/-- The function for a list whose first value is treated in a way of its own. -/
def headedWith (first normalise : α → Option α) : List α → Option (List α)
  | [] => none
  | value :: rest => do
      let head ← first value
      let tail ← rest.mapM normalise
      return head :: tail

/-- The form of such a list. -/
def HeadedForm (First Normal : α → Prop) : List α → Prop
  | [] => False
  | value :: rest => First value ∧ ∀ other ∈ rest, Normal other

theorem headed (heads : Normalises first First) (normalises : Normalises normalise Normal) :
    Normalises (headedWith first normalise) (HeadedForm First Normal) := by
  constructor
  · intro values result makes
    cases values with
    | nil => cases makes
    | cons value rest =>
        simp only [headedWith, Option.bind_eq_bind, Option.bind_eq_some_iff, Option.pure_def,
          Option.some.injEq] at makes
        obtain ⟨head, isHead, tail, isTail, rfl⟩ := makes
        exact ⟨heads.made value head isHead, normalises.mapM.made rest tail isTail⟩
  · intro values normal
    cases values with
    | nil => cases normal
    | cons value rest =>
        rw [headedWith, heads.kept value normal.1, normalises.mapM.kept rest normal.2]
        rfl

/-- The function for a text that is split into parts and joined again, where the parts of the form
can be told apart in the text. -/
theorem through {β : Type*} (normalises : Normalises normalise Normal) {split : β → α}
    {join : α → β} (joins : ∀ text, join (split text) = text)
    (splits : ∀ value, Normal value → split (join value) = value) :
    Normalises (fun text => (normalise (split text)).map join)
      (fun text => Normal (split text)) := by
  constructor
  · intro text result makes
    obtain ⟨value, isValue, rfl⟩ := Option.map_eq_some_iff.mp makes
    have normal := normalises.made (split text) value isValue
    rwa [splits value normal]
  · intro text normal
    rw [normalises.kept (split text) normal, Option.map_some, joins]

end Normalises

end PeerCove
