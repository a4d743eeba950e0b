/-
Module: PeerCove.Library.SortDedup
Layer: Library
Purpose: Sorting a list and dropping neighbouring repetitions, the usual way to make a list of
  values unique.
Trusted boundary: none
Main exports: sortDedup, SortDedup.mem_sortDedup, SortDedup.nodup_sortDedup,
  SortDedup.length_sortDedup_eq_iff, SortDedup.filter_insertionSort
-/
import Mathlib.Data.List.Sort
import Mathlib.Data.List.Destutter

/-- Sort by `le`, then keep one of each run of equal neighbours. -/
def sortDedup {α : Type*} [DecidableEq α] (le : α → α → Prop) [DecidableRel le]
    (values : List α) : List α :=
  (values.insertionSort le).destutter (· ≠ ·)

namespace SortDedup

variable {α : Type*} [DecidableEq α]

/-- Dropping a repeated neighbour loses no value. -/
theorem mem_destutter' {value : α} (values : List α) (head : α) :
    value ∈ values.destutter' (· ≠ ·) head ↔ value = head ∨ value ∈ values := by
  induction values generalizing head with
  | nil => simp [List.destutter']
  | cons next rest ih =>
      by_cases same : head = next
      · subst same
        rw [List.destutter'_cons_neg _ (by simp), ih, List.mem_cons]
        tauto
      · rw [List.destutter'_cons_pos _ same, List.mem_cons, ih, List.mem_cons]

theorem mem_destutter {value : α} (values : List α) :
    value ∈ values.destutter (· ≠ ·) ↔ value ∈ values := by
  cases values with
  | nil => rfl
  | cons head rest => rw [List.destutter_cons', mem_destutter', List.mem_cons]

@[simp] theorem mem_sortDedup (le : α → α → Prop) [DecidableRel le] {value : α}
    {values : List α} : value ∈ sortDedup le values ↔ value ∈ values := by
  rw [sortDedup, mem_destutter, List.mem_insertionSort]

omit [DecidableEq α] in
/-- In a sorted list equal values are neighbours. -/
theorem nodup_of_sorted (le : α → α → Prop) [Std.Antisymm le] {values : List α}
    (sorted : values.Pairwise le) (distinct : values.IsChain (· ≠ ·)) : values.Nodup := by
  induction values with
  | nil => exact List.nodup_nil
  | cons one rest ih =>
      rw [List.pairwise_cons] at sorted
      refine List.nodup_cons.mpr ⟨?_, ih sorted.2 distinct.tail⟩
      intro again
      cases rest with
      | nil => simp at again
      | cons two others =>
          have differ : one ≠ two := (List.isChain_cons_cons.mp distinct).1
          rcases List.mem_cons.mp again with same | later
          · exact differ same
          · have above := sorted.1 two List.mem_cons_self
            have below := (List.pairwise_cons.mp sorted.2).1 one later
            exact differ (antisymm_of le above below)

/-- The result holds no value twice. -/
theorem nodup_sortDedup (le : α → α → Prop) [DecidableRel le] [Std.Total le]
    [IsTrans α le] [Std.Antisymm le] (values : List α) : (sortDedup le values).Nodup := by
  have sorted := List.pairwise_insertionSort le values
  have kept : (sortDedup le values).Pairwise le :=
    sorted.sublist (List.destutter_sublist (· ≠ ·) _)
  exact nodup_of_sorted le kept (List.isChain_destutter (· ≠ ·) _)

/-- Nothing is dropped exactly when no value is repeated. -/
theorem length_sortDedup_eq_iff (le : α → α → Prop) [DecidableRel le] [Std.Total le]
    [IsTrans α le] [Std.Antisymm le] {values : List α} :
    (sortDedup le values).length = values.length ↔ values.Nodup := by
  have perm := List.perm_insertionSort le values
  have sorted := List.pairwise_insertionSort le values
  rw [← perm.nodup_iff, ← perm.length_eq, sortDedup]
  constructor
  · intro same
    have kept := (List.destutter_sublist (· ≠ ·) _).eq_of_length same
    have chain := (List.destutter_eq_self_iff (· ≠ ·) _).mp kept
    exact nodup_of_sorted le sorted chain
  · intro nodup
    rw [List.destutter_of_isChain _ _ nodup.isChain]

section Filter

variable {ρ : Type} (le : ρ → ρ → Prop) [DecidableRel le]

/-- In front of elements that are not below it, an element is first. -/
theorem orderedInsert_first {item : ρ} {list : List ρ} (below : ∀ other ∈ list, le item other) :
    list.orderedInsert le item = item :: list := by
  cases list with
  | nil => rfl
  | cons first rest => exact if_pos (below first List.mem_cons_self)

theorem filter_orderedInsert [IsTrans ρ le] (keep : ρ → Bool) (item : ρ) {list : List ρ}
    (sorted : list.Pairwise le) :
    (list.orderedInsert le item).filter keep =
      if keep item then (list.filter keep).orderedInsert le item else list.filter keep := by
  induction list with
  | nil =>
      cases kept : keep item with
      | true => simp [kept]
      | false => simp [kept]
  | cons first rest ih =>
      obtain ⟨least, sorted⟩ := List.pairwise_cons.mp sorted
      by_cases before : le item first
      · rw [List.orderedInsert_cons_of_le _ _ before]
        have all : ∀ other ∈ (first :: rest).filter keep, le item other := by
          intro other listed
          rcases List.mem_cons.mp (List.mem_of_mem_filter listed) with rfl | later
          · exact before
          · exact IsTrans.trans _ _ _ before (least other later)
        rw [List.filter_cons, orderedInsert_first le all]
      · rw [List.orderedInsert_of_not_le _ _ before]
        cases kept : keep first with
        | true =>
            rw [List.filter_cons_of_pos kept, List.filter_cons_of_pos kept, ih sorted,
              List.orderedInsert_of_not_le _ _ before]
            split <;> rfl
        | false =>
            have dropped : ¬ keep first = true := ne_true_of_eq_false kept
            rw [List.filter_cons_of_neg dropped, List.filter_cons_of_neg dropped, ih sorted]

/-- Sorting and leaving out. -/
theorem filter_insertionSort [IsTrans ρ le] [Std.Total le] (keep : ρ → Bool) (list : List ρ) :
    (list.insertionSort le).filter keep = (list.filter keep).insertionSort le := by
  induction list with
  | nil => rfl
  | cons first rest ih =>
      rw [List.insertionSort_cons,
        filter_orderedInsert le keep first (List.pairwise_insertionSort le rest), ih]
      cases kept : keep first with
      | true => rw [List.filter_cons_of_pos kept, List.insertionSort_cons, if_pos rfl]
      | false =>
          rw [List.filter_cons_of_neg (ne_true_of_eq_false kept), if_neg Bool.false_ne_true]

end Filter

end SortDedup
