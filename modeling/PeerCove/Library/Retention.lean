/-
Module: PeerCove.Library.Retention
Layer: Library
Purpose: A log of which the newest entries are kept, up to a number of them and as long as they are
  fresh.
Trusted boundary: none
Main exports: Retention.retained, Retention.retained_suffix, Retention.retained_concat,
  Retention.insertionSort_eq_reverse
-/
import Mathlib.Data.List.DropRight
import Mathlib.Data.List.Infix
import Mathlib.Data.List.Sort

namespace Retention

variable {α : Type}

/-- The fresh ones of the last entries of a log. -/
def retained (count : Nat) (fresh : α → Bool) (log : List α) : List α :=
  (log.rtake count).filter fresh

theorem length_retained_le (count : Nat) (fresh : α → Bool) (log : List α) :
    (retained count fresh log).length ≤ count := by
  refine (List.length_filter_le _ _).trans ?_
  rw [List.rtake, List.length_drop]
  omega

/-- Where freshness is never lost from one entry to a later one, the fresh entries are the last. -/
theorem filter_suffix {fresh : α → Bool} {log : List α}
    (later : log.Pairwise (fun one two => fresh one = true → fresh two = true)) :
    log.filter fresh <:+ log := by
  induction log with
  | nil => exact List.suffix_rfl
  | cons entry rest ih =>
      obtain ⟨head, tail⟩ := List.pairwise_cons.mp later
      by_cases isFresh : fresh entry = true
      · have all : rest.filter fresh = rest :=
          List.filter_eq_self.mpr (fun other member => head other member isFresh)
        rw [List.filter_cons_of_pos isFresh, all]
      · rw [List.filter_cons_of_neg isFresh]
        exact (ih tail).trans (List.suffix_cons entry rest)

theorem retained_suffix {count : Nat} {fresh : α → Bool} {log : List α}
    (later : log.Pairwise (fun one two => fresh one = true → fresh two = true)) :
    retained count fresh log <:+ log := by
  have last : log.rtake count <:+ log := List.drop_suffix _ _
  exact (filter_suffix (later.sublist last.sublist)).trans last

/-- A fresh entry at the end is kept. -/
theorem retained_concat {count : Nat} {fresh : α → Bool} {entry : α} (isFresh : fresh entry = true)
    (log : List α) :
    retained (count + 1) fresh (log ++ [entry]) = retained count fresh log ++ [entry] := by
  rw [retained, List.rtake_concat_succ, List.filter_append, List.filter_cons_of_pos isFresh]
  rfl

/-- The last entries are those that have one of their keys. -/
theorem filter_key_rtake {κ : Type} [DecidableEq κ] {key : α → κ} {log : List α}
    (distinct : (log.map key).Nodup) (count : Nat) :
    log.filter (fun entry => key entry ∈ (log.rtake count).map key) = log.rtake count := by
  have split : log.take (log.length - count) ++ log.rtake count = log := List.take_append_drop _ _
  generalize log.rtake count = newest at split
  generalize log.take (log.length - count) = older at split
  subst split
  rw [List.map_append, List.nodup_append] at distinct
  rw [List.filter_append]
  have none_ : older.filter (fun entry => key entry ∈ newest.map key) = [] := by
    refine List.filter_eq_nil_iff.mpr (fun entry listed there => ?_)
    exact distinct.2.2 _ (List.mem_map_of_mem listed) _ (of_decide_eq_true there) rfl
  have all : newest.filter (fun entry => key entry ∈ newest.map key) = newest :=
    List.filter_eq_self.mpr (fun entry listed => decide_eq_true (List.mem_map_of_mem listed))
  rw [none_, all, List.nil_append]

/-! ### Logs that are read from the end -/

theorem orderedInsert_last {order : α → α → Prop} [DecidableRel order] {entry : α} {log : List α}
    (after : ∀ other ∈ log, ¬ order entry other) :
    log.orderedInsert order entry = log ++ [entry] := by
  induction log with
  | nil => rfl
  | cons other rest ih =>
      rw [List.orderedInsert_of_not_le _ _ (after other List.mem_cons_self),
        ih (fun later member => after later (List.mem_cons_of_mem _ member))]
      rfl

/-- A log whose order goes the other way is reversed by sorting. -/
theorem insertionSort_eq_reverse {order : α → α → Prop} [DecidableRel order] {log : List α}
    (against : log.Pairwise (fun one two => ¬ order one two)) :
    log.insertionSort order = log.reverse := by
  induction log with
  | nil => rfl
  | cons entry rest ih =>
      obtain ⟨head, tail⟩ := List.pairwise_cons.mp against
      rw [List.insertionSort_cons, ih tail, List.reverse_cons]
      exact orderedInsert_last (fun other member => head other (List.mem_reverse.mp member))

end Retention
