/-
Module: PeerCove.Library.Lcs
Layer: Library
Purpose: Longest common subsequences of two lists: what the length is, the recurrence for it over
  the ends of the lists, and what common parts at both ends add.
Trusted boundary: none
Main exports: Lcs.Longest, Lcs.length, Lcs.length_longest, Lcs.Longest.append_left,
  Lcs.Longest.append_right
-/
import Mathlib.Data.List.Basic

namespace Lcs

variable {α : Type} {x y : α} {xs ys common : List α} {k l : Nat}

/-- `k` is the length of a longest common subsequence. -/
structure Longest (xs ys : List α) (k : Nat) : Prop where
  attained : ∃ common : List α, common.Sublist xs ∧ common.Sublist ys ∧ common.length = k
  bound : ∀ common : List α, common.Sublist xs → common.Sublist ys → common.length ≤ k

namespace Longest

theorem unique (one : Longest xs ys k) (other : Longest xs ys l) : k = l := by
  obtain ⟨common, inXs, inYs, rfl⟩ := one.attained
  obtain ⟨common', inXs', inYs', rfl⟩ := other.attained
  exact Nat.le_antisymm (other.bound common inXs inYs) (one.bound common' inXs' inYs')

theorem nil_left (ys : List α) : Longest [] ys 0 where
  attained := ⟨[], List.Sublist.refl [], List.nil_sublist ys, rfl⟩
  bound := fun _ inNil _ => inNil.length_le

theorem nil_right (xs : List α) : Longest xs [] 0 where
  attained := ⟨[], List.nil_sublist xs, List.Sublist.refl [], rfl⟩
  bound := fun _ _ inNil => inNil.length_le

theorem cons_same (rest : Longest xs ys k) : Longest (x :: xs) (x :: ys) (k + 1) := by
  constructor
  · obtain ⟨common, inXs, inYs, rfl⟩ := rest.attained
    exact ⟨x :: common, inXs.cons_cons x, inYs.cons_cons x, rfl⟩
  · intro common inXs inYs
    have shorter : common.tail.length ≤ k := rest.bound common.tail inXs.tail inYs.tail
    rw [List.length_tail] at shorter
    exact Nat.le_add_of_sub_le shorter

theorem cons_ne (differs : x ≠ y) (left : Longest xs (y :: ys) k)
    (right : Longest (x :: xs) ys l) : Longest (x :: xs) (y :: ys) (max k l) := by
  constructor
  · rcases Nat.le_total l k with fewer | fewer
    · obtain ⟨common, inXs, inYs, count⟩ := left.attained
      exact ⟨common, inXs.cons x, inYs, count.trans (Nat.max_eq_left fewer).symm⟩
    · obtain ⟨common, inXs, inYs, count⟩ := right.attained
      exact ⟨common, inXs, inYs.cons y, count.trans (Nat.max_eq_right fewer).symm⟩
  · intro common inXs inYs
    cases common with
    | nil => exact Nat.zero_le _
    | cons z common =>
        by_cases first : z = x
        · -- The common subsequence uses `x`, so it cannot use `y`.
          have notSecond : z ≠ y := fun second => differs (first.symm.trans second)
          exact Nat.le_trans (right.bound _ inXs (inYs.of_cons_of_ne notSecond)) (Nat.le_max_right k l)
        · exact Nat.le_trans (left.bound _ (inXs.of_cons_of_ne first) inYs) (Nat.le_max_left k l)

theorem reverse (longest : Longest xs ys k) : Longest xs.reverse ys.reverse k := by
  constructor
  · obtain ⟨common, inXs, inYs, count⟩ := longest.attained
    exact ⟨common.reverse, inXs.reverse, inYs.reverse, List.length_reverse.trans count⟩
  · intro common inXs inYs
    have turnedXs : common.reverse.Sublist xs := by
      have turned := inXs.reverse
      rwa [List.reverse_reverse] at turned
    have turnedYs : common.reverse.Sublist ys := by
      have turned := inYs.reverse
      rwa [List.reverse_reverse] at turned
    rw [← List.length_reverse]
    exact longest.bound common.reverse turnedXs turnedYs

/-- A common part at the start is in a longest common subsequence as a whole. -/
theorem append_left (start : List α) (rest : Longest xs ys k) :
    Longest (start ++ xs) (start ++ ys) (start.length + k) := by
  induction start with
  | nil => rwa [List.length_nil, Nat.zero_add]
  | cons x start ih =>
      rw [List.length_cons, Nat.succ_add]
      exact ih.cons_same

/-- A common part at the end is in a longest common subsequence as a whole. -/
theorem append_right (ending : List α) (rest : Longest xs ys k) :
    Longest (xs ++ ending) (ys ++ ending) (k + ending.length) := by
  have turned := (rest.reverse.append_left ending.reverse).reverse
  rw [← List.reverse_append, ← List.reverse_append, List.reverse_reverse, List.reverse_reverse,
    List.length_reverse, Nat.add_comm] at turned
  exact turned

end Longest

/-! ### The recurrence -/

variable [DecidableEq α]

/-- Length of a longest common subsequence, from the first elements on. -/
def length : List α → List α → Nat
  | [], _ => 0
  | _ :: _, [] => 0
  | x :: xs, y :: ys =>
      if x = y then length xs ys + 1 else max (length xs (y :: ys)) (length (x :: xs) ys)

theorem length_nil_left (ys : List α) : length [] ys = 0 := by
  rw [length]

theorem length_nil_right (xs : List α) : length xs [] = 0 := by
  cases xs with
  | nil => exact length_nil_left []
  | cons x xs => rw [length]

theorem length_cons_same (x : α) (xs ys : List α) :
    length (x :: xs) (x :: ys) = length xs ys + 1 := by
  rw [length, if_pos rfl]

theorem length_cons_ne (differs : x ≠ y) (xs ys : List α) :
    length (x :: xs) (y :: ys) = max (length xs (y :: ys)) (length (x :: xs) ys) := by
  rw [length, if_neg differs]

/-- The recurrence computes the length. -/
theorem length_longest (xs ys : List α) : Longest xs ys (length xs ys) := by
  induction xs, ys using length.induct with
  | case1 ys =>
      rw [length_nil_left]
      exact Longest.nil_left ys
  | case2 x xs =>
      rw [length_nil_right]
      exact Longest.nil_right (x :: xs)
  | case3 x xs ys ih =>
      rw [length_cons_same]
      exact ih.cons_same
  | case4 x xs y ys differs left right =>
      rw [length_cons_ne differs]
      exact Longest.cons_ne differs left right

end Lcs
