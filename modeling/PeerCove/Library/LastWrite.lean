/-
Module: PeerCove.Library.LastWrite
Layer: Library
Purpose: Registers that take whatever update arrives last: two orders of the same updates leave a
  register alike exactly when its last updates in the two orders say the same.
Trusted boundary: none
Main exports: LastWrite.overwriteAll, LastWrite.last?, LastWrite.overwriteAll_eq_iff
-/
import Mathlib.Data.List.Induction

namespace LastWrite

variable {κ ν : Type} [DecidableEq κ]

/-- One register is overwritten. -/
def overwrite (state : κ → ν) (update : κ × ν) : κ → ν := fun key =>
  if key = update.1 then update.2 else state key

/-- The updates in the order of the list. -/
def overwriteAll (updates : List (κ × ν)) (state : κ → ν) : κ → ν :=
  updates.foldl overwrite state

/-- The last update of a register. -/
def last? (updates : List (κ × ν)) (key : κ) : Option ν :=
  (updates.reverse.find? (fun update => update.1 = key)).map Prod.snd

theorem overwriteAll_append (one two : List (κ × ν)) (state : κ → ν) :
    overwriteAll (one ++ two) state = overwriteAll two (overwriteAll one state) :=
  List.foldl_append

theorem overwrite_self (state : κ → ν) (key : κ) (value : ν) :
    overwrite state (key, value) key = value :=
  if_pos rfl

theorem overwrite_of_ne (state : κ → ν) {key other : κ} (value : ν) (differ : other ≠ key) :
    overwrite state (key, value) other = state other :=
  if_neg differ

/-- Updates of different registers commute. -/
theorem overwrite_comm {one two : κ × ν} (differ : one.1 ≠ two.1) (state : κ → ν) :
    overwrite (overwrite state one) two = overwrite (overwrite state two) one := by
  funext key
  unfold overwrite
  by_cases first : key = one.1
  · rw [if_neg (fun second => differ (first.symm.trans second)), if_pos first, if_pos first]
  · rw [if_neg first, if_neg first]

/-- Copies of one update do what it does once. -/
theorem overwriteAll_same {update : κ × ν} {updates : List (κ × ν)}
    (all : ∀ other ∈ updates, other = update) (some : updates ≠ []) (state : κ → ν) :
    overwriteAll updates state = overwrite state update := by
  induction updates generalizing state with
  | nil => exact absurd rfl some
  | cons other rest ih =>
      have first := all other List.mem_cons_self
      rw [overwriteAll, List.foldl_cons, first]
      by_cases last : rest = []
      · rw [last]
        rfl
      · have again := ih (fun next listed => all next (List.mem_cons_of_mem _ listed)) last
          (overwrite state update)
        rw [overwriteAll] at again
        rw [again]
        funext key
        unfold overwrite
        split
        · rfl
        · rfl

/-- An update may be moved before earlier ones of other registers. -/
theorem overwriteAll_forward {earlier later : List (κ × ν)} {key : κ} {value : ν}
    (differ : ∀ other ∈ earlier, other.1 ≠ key) (state : κ → ν) :
    overwriteAll (earlier ++ (key, value) :: later) state =
      overwriteAll ((key, value) :: (earlier ++ later)) state := by
  induction earlier generalizing state with
  | nil => rfl
  | cons other rest ih =>
      have moved := ih (fun next listed => differ next (List.mem_cons_of_mem _ listed))
        (overwrite state other)
      have apart : other.1 ≠ (key, value).1 := differ other List.mem_cons_self
      have commute := overwrite_comm apart state
      simp only [overwriteAll, List.cons_append, List.foldl_cons] at moved ⊢
      rw [moved, commute]

theorem last?_concat (updates : List (κ × ν)) (update : κ × ν) (key : κ) :
    last? (updates ++ [update]) key =
      if key = update.1 then some update.2 else last? updates key := by
  unfold last?
  rw [List.reverse_append, List.reverse_singleton, List.singleton_append]
  by_cases same : key = update.1
  · rw [if_pos same, List.find?_cons_of_pos (by simp [same])]
    rfl
  · rw [if_neg same, List.find?_cons_of_neg (by simpa using Ne.symm same)]

/-- A register holds its last update, or what it held before there was one. -/
theorem overwriteAll_apply (updates : List (κ × ν)) (state : κ → ν) (key : κ) :
    overwriteAll updates state key = (last? updates key).getD (state key) := by
  induction updates using List.reverseRecOn with
  | nil => rfl
  | append_singleton updates update ih =>
      rw [overwriteAll_append, last?_concat]
      by_cases same : key = update.1
      · rw [if_pos same]
        exact if_pos same
      · rw [if_neg same, ← ih]
        exact if_neg same

theorem last?_eq_none {updates : List (κ × ν)} {key : κ} :
    last? updates key = none ↔ ∀ update ∈ updates, update.1 ≠ key := by
  simp [last?]

/-- Two orders of the same updates update the same registers. -/
theorem last?_eq_none_of_perm {one two : List (κ × ν)} (same : one.Perm two) (key : κ) :
    last? one key = none ↔ last? two key = none := by
  rw [last?_eq_none, last?_eq_none]
  constructor
  · intro never update listed
    exact never update (same.mem_iff.mpr listed)
  · intro never update listed
    exact never update (same.mem_iff.mp listed)

/-- Two orders of the same updates leave a register alike exactly when they end with the same
update of it. -/
theorem overwriteAll_eq_iff {one two : List (κ × ν)} (same : one.Perm two) (state : κ → ν)
    (key : κ) :
    overwriteAll one state key = overwriteAll two state key ↔ last? one key = last? two key := by
  rw [overwriteAll_apply, overwriteAll_apply]
  have untouched := last?_eq_none_of_perm same key
  cases first : last? one key with
  | none =>
      rw [untouched.mp first]
      simp
  | some value =>
      cases second : last? two key with
      | none =>
          rw [untouched.mpr second] at first
          cases first
      | some value' => simp

end LastWrite
