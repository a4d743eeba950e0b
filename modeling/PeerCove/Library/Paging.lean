/-
Module: PeerCove.Library.Paging
Layer: Library
Purpose: A reader who fetches one page after another, each from the last item it got, and the rule
  that says when it gets everything, once and in order.
Trusted boundary: none
Main exports: Paging.later, Paging.readAll, Paging.Pages, Paging.readAll_eq
-/
import Mathlib.Data.List.Basic

namespace Paging

variable {α : Type} (key : α → Nat)

/-- The items after a position. -/
def later (items : List α) (after : Nat) : List α :=
  items.filter (fun item => after < key item)

/-- Fetch from a position on until a page is empty; without fuel there is no result. -/
def readAll (fetch : Nat → List α) : Nat → Nat → Option (List α)
  | 0, _ => none
  | fuel + 1, after =>
      match (fetch after).getLast? with
      | none => some []
      | some last => (readAll fetch fuel (key last)).map (fetch after ++ ·)

/-- Every page is the beginning of what comes after its position, and not empty before the end. -/
structure Pages (items : List α) (fetch : Nat → List α) : Prop where
  begins : ∀ after, fetch after <+: later key items after
  goesOn : ∀ after, later key items after ≠ [] → fetch after ≠ []

variable {key} {items : List α} {fetch : Nat → List α}

/-- What comes after the last item of a page is what the page left out. -/
theorem later_last (ordered : items.Pairwise (fun one two => key one < key two)) {after : Nat}
    {page rest : List α} {last : α} (split : later key items after = page ++ rest)
    (isLast : page.getLast? = some last) : later key items (key last) = rest := by
  have inPage : last ∈ page := List.mem_of_getLast? isLast
  have isLater : after < key last := by
    have member : last ∈ later key items after := split ▸ List.mem_append_left _ inPage
    exact of_decide_eq_true (List.mem_filter.mp member).2
  have again : later key items (key last)
      = (later key items after).filter (fun item => key last < key item) := by
    rw [later, later, List.filter_filter]
    apply List.filter_congr
    intro item _
    by_cases beyond : key last < key item
    · simp [beyond, Nat.lt_trans isLater beyond]
    · simp [beyond]
  have sorted : (page ++ rest).Pairwise (fun one two => key one < key two) := by
    rw [← split]
    exact ordered.filter _
  obtain ⟨inOrder, _, apart⟩ := List.pairwise_append.mp sorted
  obtain ⟨front, isPage⟩ := List.getLast?_eq_some_iff.mp isLast
  have passed : page.filter (fun item => key last < key item) = [] := by
    rw [List.filter_eq_nil_iff]
    intro item member
    simp only [decide_eq_true_eq, Nat.not_lt]
    rw [isPage] at member inOrder
    rcases List.mem_append.mp member with before | same
    · have less := (List.pairwise_append.mp inOrder).2.2 item before last List.mem_cons_self
      exact Nat.le_of_lt less
    · exact Nat.le_of_eq (congrArg key (List.mem_singleton.mp same))
  have ahead : rest.filter (fun item => key last < key item) = rest := by
    rw [List.filter_eq_self]
    intro item member
    exact decide_eq_true (apart last inPage item member)
  rw [again, split, List.filter_append, passed, ahead, List.nil_append]

/-- The reader gets everything after its position, once and in order, in one fetch more than there
are items. -/
theorem readAll_eq (ordered : items.Pairwise (fun one two => key one < key two))
    (pages : Pages key items fetch) {fuel after : Nat}
    (enough : (later key items after).length < fuel) :
    readAll key fetch fuel after = some (later key items after) := by
  induction fuel generalizing after with
  | zero => exact absurd enough (Nat.not_lt_zero _)
  | succ fuel ih =>
      obtain ⟨rest, split⟩ := pages.begins after
      rw [readAll]
      cases isLast : (fetch after).getLast? with
      | none =>
          have empty : fetch after = [] := List.getLast?_eq_none_iff.mp isLast
          by_cases done : later key items after = []
          · rw [done]
          · exact absurd empty (pages.goesOn after done)
      | some last =>
          have left := later_last ordered split.symm isLast
          have shorter : rest.length < fuel := by
            have filled : fetch after ≠ [] := List.ne_nil_of_mem (List.mem_of_getLast? isLast)
            have positive := List.length_pos_iff.mpr filled
            rw [← split, List.length_append] at enough
            omega
          dsimp only
          rw [ih (left.symm ▸ shorter), left, Option.map_some, split]

end Paging
