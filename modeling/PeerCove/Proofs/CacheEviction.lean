/-
Module: PeerCove.Proofs.CacheEviction
Layer: Proofs
Purpose: Which memos a member's cache gives up when it takes too much room: the oldest ones, and no
  more of them than it has to.
Trusted boundary: none
Main exports: SharedCache.Eviction, SharedCache.enforceLimitWith_evicts,
  SharedCache.bounded_enforceLimit
-/
import PeerCove.Memo.CacheStore

namespace PeerCove

namespace SharedCache

/-- The rows in the order of `updated_at`: those that are evicted, and those that are kept. -/
structure Eviction (maxBytes : Nat) (rows evicted kept : List (String × CachedMemo)) : Prop where
  same : (evicted ++ kept).Perm rows
  oldest : (evicted ++ kept).Pairwise (fun one two => one.2.updatedAt ≤ two.2.updatedAt)
  fits : bytesOf kept ≤ maxBytes ∨ kept.length = 1
  last : kept ≠ [] ∨ rows = []
  /-- With fewer evictions there are too many bytes, in more than one memo. -/
  needed : ∀ count < evicted.length, maxBytes < bytesOf ((evicted ++ kept).drop count) ∧
    2 ≤ ((evicted ++ kept).drop count).length

variable {cache : SharedCache} {maxBytes : Nat}

theorem bytesOf_perm {one two : List (String × CachedMemo)} (same : one.Perm two) :
    bytesOf one = bytesOf two :=
  (same.map _).sum_nat

/-- When no pass deletes anything the cache fits, or has one memo. -/
theorem eviction_none (stops : cache.evictionPass maxBytes = none) :
    Eviction maxBytes cache.memos.rows []
      (cache.memos.rows.insertionSort (fun one two => one.2.updatedAt ≤ two.2.updatedAt)) where
  same := List.perm_insertionSort _ _
  oldest := List.pairwise_insertionSort _ _
  fits := by
    have same := List.perm_insertionSort (fun one two : String × CachedMemo =>
      one.2.updatedAt ≤ two.2.updatedAt) cache.memos.rows
    rw [bytesOf_perm same, same.length_eq]
    unfold evictionPass at stops
    split at stops
    · exact .inl ‹_›
    · rename_i exceeds
      split at stops
      · rename_i few
        refine .inr (le_antisymm few ?_)
        -- An empty cache has no bytes.
        refine Nat.pos_of_ne_zero (fun none_ => exceeds ?_)
        rw [List.length_eq_zero_iff.mp none_]
        exact Nat.zero_le _
      · rename_i many
        have empty := Option.map_eq_none_iff.mp stops
        rw [List.head?_eq_none_iff] at empty
        have length := same.length_eq
        rw [empty] at length
        have few : cache.memos.size ≤ 1 := length.ge.trans (Nat.zero_le 1)
        exact absurd few many
  last := by
    rcases eq_or_ne cache.memos.rows [] with empty | some_
    · exact .inr empty
    · refine .inl (fun none_ => some_ ?_)
      have same := List.perm_insertionSort (fun one two : String × CachedMemo =>
        one.2.updatedAt ≤ two.2.updatedAt) cache.memos.rows
      exact List.perm_nil.mp (none_ ▸ same.symm)
  needed := fun _ few => absurd few (Nat.not_lt_zero _)

/-- A pass that deletes the oldest memo, and the eviction of the others. -/
theorem eviction_cons {id : String} {memo : CachedMemo} {evicted kept : List (String × CachedMemo)}
    (exceeds : maxBytes < bytesOf cache.memos.rows) (many : 2 ≤ cache.memos.size)
    (stored : cache.memos.get? id = some memo)
    (least : ∀ entry ∈ cache.memos.rows, memo.updatedAt ≤ entry.2.updatedAt)
    (rest : Eviction maxBytes (cache.remove id).memos.rows evicted kept) :
    Eviction maxBytes cache.memos.rows ((id, memo) :: evicted) kept where
  same := (rest.same.cons _).trans (Table.rows_perm stored)
  oldest := by
    refine List.pairwise_cons.mpr ⟨fun entry listed => least entry ?_, rest.oldest⟩
    exact (Table.rows_perm stored).mem_iff.mp (List.mem_cons_of_mem _ (rest.same.mem_iff.mp listed))
  fits := rest.fits
  last := by
    rcases rest.last with some_ | none_
    · exact .inl some_
    · -- One of at least two memos is deleted.
      have one := (Table.rows_perm stored).length_eq
      rw [remove] at none_
      rw [none_] at one
      have two : 2 ≤ cache.memos.rows.length := many
      rw [← one] at two
      exact absurd (Nat.lt_of_succ_le two) (lt_irrefl 1)
  needed := by
    intro count few
    cases count with
    | zero =>
        have same := (rest.same.cons (id, memo)).trans (Table.rows_perm stored)
        rw [List.drop_zero, List.cons_append, bytesOf_perm same, same.length_eq]
        exact ⟨exceeds, many⟩
    | succ count => exact rest.needed count (Nat.lt_of_succ_lt_succ few)

/-- The loop deletes the oldest memos until the others fit, and no more. -/
theorem evictionLoop_evicts (maxBytes : Nat) (cache : SharedCache) :
    ∃ evicted kept, Eviction maxBytes cache.memos.rows evicted kept ∧
      (cache.evictionLoop maxBytes).2 = evicted.map Prod.fst ∧
      (cache.evictionLoop maxBytes).1.memos.rows.Perm kept := by
  fun_induction evictionLoop maxBytes cache with
  | case1 cache stops =>
      exact ⟨[], _, eviction_none stops, rfl, (List.perm_insertionSort _ _).symm⟩
  | case2 cache id evicts left deleted next ih =>
      obtain ⟨exceeds, many, isOldest⟩ := evictionPass_some evicts
      obtain ⟨memo, stored, least⟩ := oldestId_some isOldest
      obtain ⟨evicted, kept, rest, ids, remains⟩ := ih
      rw [next] at ids remains
      exact ⟨(id, memo) :: evicted, kept, eviction_cons exceeds many stored least rest,
        congrArg (id :: ·) ids, remains⟩

/-- The eviction of a cache, for every limit. -/
theorem enforceLimitWith_evicts (maxBytes : Nat) (cache : SharedCache) :
    ∃ evicted kept, Eviction maxBytes cache.memos.rows evicted kept ∧
      (cache.evictionLoop maxBytes).2 = evicted.map Prod.fst ∧
      (cache.enforceLimitWith maxBytes).1.memos.rows.Perm kept ∧
      (cache.enforceLimitWith maxBytes).2 = evicted.length := by
  obtain ⟨evicted, kept, eviction, ids, remains⟩ := evictionLoop_evicts maxBytes cache
  refine ⟨evicted, kept, eviction, ids, remains, ?_⟩
  rw [enforceLimitWith, ids, List.length_map]

/-- After each write the cache fits, or has one memo. -/
def Bounded (cache : SharedCache) : Prop :=
  bytesOf cache.memos.rows ≤ CACHE_MAX_BYTES ∨ cache.memos.size = 1

theorem bounded_enforceLimit (cache : SharedCache) : cache.enforceLimit.Bounded := by
  obtain ⟨_, kept, eviction, _, remains, _⟩ := enforceLimitWith_evicts CACHE_MAX_BYTES cache
  rw [Bounded, Table.size, enforceLimit, bytesOf_perm remains, remains.length_eq]
  exact eviction.fits

theorem bounded_upsert (cache : SharedCache) (memo : SharedMemoDetail) :
    (cache.upsert memo).Bounded :=
  bounded_enforceLimit _

theorem bounded_retain (cache : SharedCache) (ids : List String) : (cache.retain ids).Bounded :=
  bounded_enforceLimit _

end SharedCache

end PeerCove
