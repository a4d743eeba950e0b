/-
Module: PeerCove.Library.FreshName
Layer: Library
Purpose: Search numbered candidates for one that is not taken: a search without end that ends all
  the same, since only finitely many are taken.
Trusted boundary: none
Main exports: FreshName.search, FreshName.search_isSome, FreshName.search_spec,
  FreshName.search_keeps
-/
import Mathlib.Data.List.Nodup
import Mathlib.Data.List.Perm.Subperm
import Mathlib.Data.List.Range

namespace FreshName

variable {α : Type} [DecidableEq α]

/-- The first candidate that is not taken. -/
def search (candidate : Nat → α) (taken : List α) : Option α :=
  ((List.range (taken.length + 1)).map candidate).find? (· ∉ taken)

/-- Among different candidates, one more than there are names taken, one is free. -/
theorem search_isSome {candidate : Nat → α} (distinct : Function.Injective candidate)
    (taken : List α) : (search candidate taken).isSome = true := by
  rw [search, List.find?_isSome]
  by_contra none
  have all : (List.range (taken.length + 1)).map candidate ⊆ taken := by
    intro name listed
    by_contra fresh
    exact none ⟨name, listed, decide_eq_true fresh⟩
  have nodup : ((List.range (taken.length + 1)).map candidate).Nodup :=
    List.Nodup.map distinct List.nodup_range
  have few := (List.subperm_of_subset nodup all).length_le
  rw [List.length_map, List.length_range] at few
  omega

theorem search_spec {candidate : Nat → α} {taken : List α} {name : α}
    (found : search candidate taken = some name) :
    name ∉ taken ∧ ∃ number, candidate number = name := by
  rw [search] at found
  constructor
  · simpa using List.find?_some found
  · rcases List.mem_map.mp (List.mem_of_find?_eq_some found) with ⟨number, _, same⟩
    exact ⟨number, same⟩

theorem search_first {candidate : Nat → α} {taken : List α} {name : α}
    (found : search candidate taken = some name) :
    ∃ number, candidate number = name ∧ name ∉ taken ∧
      ∀ earlier, earlier < number → candidate earlier ∈ taken := by
  rw [search, List.find?_map] at found
  obtain ⟨number, first, rfl⟩ := Option.map_eq_some_iff.mp found
  obtain ⟨free, _, before⟩ := List.find?_range_eq_some.mp first
  refine ⟨number, rfl, by simpa using free, fun earlier less => ?_⟩
  simpa using before earlier less

/-- The name found is found again when more names are taken, and it is not one of them. -/
theorem search_keeps {candidate : Nat → α} (distinct : Function.Injective candidate)
    {taken more : List α} (grows : taken ⊆ more) {name : α}
    (found : search candidate taken = some name) (free : name ∉ more) :
    search candidate more = some name := by
  obtain ⟨number, rfl, _, before⟩ := search_first found
  obtain ⟨other, again⟩ := Option.isSome_iff_exists.mp (search_isSome distinct more)
  obtain ⟨second, rfl, otherFree, otherBefore⟩ := search_first again
  rcases Nat.lt_trichotomy second number with less | same | greater
  · exact absurd (grows (before second less)) otherFree
  · rw [again, same]
  · exact absurd (otherBefore number greater) free

end FreshName
