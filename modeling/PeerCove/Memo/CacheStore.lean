/-
Module: PeerCove.Memo.CacheStore
Layer: Store
Purpose: The copies of shared memos that a member's `SharedCache` keeps, what is read from them
  without the host, and which of them are deleted when they take too much room.
Trusted boundary: SQLite keeps primary keys; input and output do not fail
Main exports: CachedMemo, SharedCache, SharedCache.resolveTitles, SharedCache.backlinks,
  SharedCache.enforceLimitWith, SharedCache.upsert, SharedCache.retain
-/
import PeerCove.Memo.SharedStore

namespace PeerCove

/-- The columns of `memos` in the cache. -/
structure CachedMemo where
  title : String
  body : String
  folderId : Option String
  revision : Nat
  ownerId : String
  ownerName : String
  createdAt : Nat
  updatedAt : Nat
  updatedBy : Option String
  canEdit : Bool
  canManage : Bool
  lockedBy : Option String
  commentCount : Nat
deriving Repr, DecidableEq

/-- What `upsert` writes of a memo. -/
def SharedMemoDetail.columns (memo : SharedMemoDetail) : CachedMemo where
  title := memo.title
  body := memo.body
  folderId := memo.folderId
  revision := memo.revision
  ownerId := memo.ownerId
  ownerName := memo.ownerName
  createdAt := memo.createdAt
  updatedAt := memo.updatedAt
  updatedBy := memo.updatedBy
  canEdit := memo.canEdit
  canManage := memo.canManage
  lockedBy := memo.lockedBy
  commentCount := memo.commentCount

/-- `cache_summary`. -/
def CachedMemo.summary (id : String) (memo : CachedMemo) : SharedMemoSummary where
  id := id
  title := memo.title
  excerpt := excerpt memo.body EXCERPT_CHARS
  folderId := memo.folderId
  revision := memo.revision
  createdAt := memo.createdAt
  updatedAt := memo.updatedAt
  updatedBy := memo.updatedBy
  ownerId := memo.ownerId
  ownerName := memo.ownerName
  deletedAt := none
  canEdit := memo.canEdit
  canManage := memo.canManage
  lockedBy := memo.lockedBy
  checklistDone := (checklistProgress memo.body).1
  checklistTotal := (checklistProgress memo.body).2
  commentCount := memo.commentCount

/-- The table `memos` of the cache. -/
structure SharedCache where
  memos : Table String CachedMemo
deriving DecidableEq

namespace SharedCache

variable (cache : SharedCache)

/-- The newest copy with a title. -/
def titleId? (title : String) : Option String :=
  (((cache.memos.rows.filter (fun entry => entry.2.title = title)).insertionSort
    (fun one two => two.2.updatedAt ≤ one.2.updatedAt)).head?).map Prod.fst

/-- `resolve_titles`: each title once, with the newest copy of that title. -/
def resolveTitles (titles : List String) : List (String × String) :=
  (titles.dedup.filter (· ≠ "")).filterMap (fun title =>
    (cache.titleId? title).map (fun id => (title, id)))

/-- The row that `get` reads. -/
def get (id : String) : Except String CachedMemo :=
  match cache.memos.get? id with
  | some memo => .ok memo
  | none => .error SharedStore.NOT_FOUND

/-- Copies whose body links to the memo. -/
def backlinks (id : String) : Except String (List SharedMemoSummary) := do
  let target ← cache.get id
  if target.title = "" then
    return []
  else
    return ((cache.memos.rows.filter (fun entry => entry.1 ≠ id &&
      Text.likeContains entry.2.body ("[[" ++ target.title ++ "]]"))).insertionSort
        (fun one two => two.2.updatedAt ≤ one.2.updatedAt)).map (fun entry =>
          entry.2.summary entry.1)

/-! ### The limit on the bodies -/

def CACHE_MAX_BYTES : Nat := 50 * 1024 * 1024

def bytesOf (rows : List (String × CachedMemo)) : Nat :=
  (rows.map (fun entry => Text.len entry.2.body)).sum

/-- `SELECT id FROM memos ORDER BY updated_at ASC LIMIT 1`. -/
def oldestId : Option String :=
  ((cache.memos.rows.insertionSort (fun one two => one.2.updatedAt ≤ two.2.updatedAt)).head?).map
    Prod.fst

def remove (id : String) : SharedCache :=
  { cache with memos := cache.memos.erase id }

/-- One pass of the loop of `enforce_limit_with`: the memo it deletes, unless it leaves the loop. -/
def evictionPass (maxBytes : Nat) : Option String :=
  if bytesOf cache.memos.rows ≤ maxBytes then none
  else if cache.memos.size ≤ 1 then none
  else cache.oldestId

variable {cache}

/-- The oldest memo is stored, and no other one is older. -/
theorem oldestId_some {id : String} (found : cache.oldestId = some id) :
    ∃ memo, cache.memos.get? id = some memo ∧
      ∀ entry ∈ cache.memos.rows, memo.updatedAt ≤ entry.2.updatedAt := by
  obtain ⟨entry, first, rfl⟩ := Option.map_eq_some_iff.mp found
  obtain ⟨rest, sorted⟩ := List.head?_eq_some_iff.mp first
  have same := List.perm_insertionSort (fun one two : String × CachedMemo =>
    one.2.updatedAt ≤ two.2.updatedAt) cache.memos.rows
  have order := List.pairwise_insertionSort (fun one two : String × CachedMemo =>
    one.2.updatedAt ≤ two.2.updatedAt) cache.memos.rows
  rw [sorted] at same order
  refine ⟨entry.2, Table.get?_eq_some.mpr (same.mem_iff.mp List.mem_cons_self), ?_⟩
  intro other listed
  rcases List.mem_cons.mp (same.mem_iff.mpr listed) with rfl | later
  · exact le_rfl
  · exact List.rel_of_pairwise_cons order later

theorem evictionPass_some {maxBytes : Nat} {id : String}
    (evicts : cache.evictionPass maxBytes = some id) :
    maxBytes < bytesOf cache.memos.rows ∧ 2 ≤ cache.memos.size ∧ cache.oldestId = some id := by
  unfold evictionPass at evicts
  split at evicts
  · cases evicts
  · split at evicts
    · cases evicts
    · exact ⟨by omega, by omega, evicts⟩

/-- A pass that deletes leaves one memo less. -/
theorem size_remove {maxBytes : Nat} {id : String}
    (evicts : cache.evictionPass maxBytes = some id) :
    (cache.remove id).memos.size + 1 = cache.memos.size := by
  obtain ⟨memo, stored, _⟩ := oldestId_some (evictionPass_some evicts).2.2
  exact Table.size_erase_some stored

variable (cache)

/-- The loop of `enforce_limit_with`, with the ids in the order they are deleted. -/
def evictionLoop (maxBytes : Nat) (cache : SharedCache) : SharedCache × List String :=
  match _pass : cache.evictionPass maxBytes with
  | none => (cache, [])
  | some id =>
      let (left, deleted) := evictionLoop maxBytes (cache.remove id)
      (left, id :: deleted)
termination_by cache.memos.size
decreasing_by exact Nat.lt_of_succ_le (size_remove _pass).le

/-- `enforce_limit_with`: what is left, and how many memos were deleted. -/
def enforceLimitWith (maxBytes : Nat) : SharedCache × Nat :=
  ((cache.evictionLoop maxBytes).1, (cache.evictionLoop maxBytes).2.length)

def enforceLimit : SharedCache :=
  (cache.enforceLimitWith CACHE_MAX_BYTES).1

def upsert (memo : SharedMemoDetail) : SharedCache :=
  { cache with memos := cache.memos.insert memo.id memo.columns : SharedCache }.enforceLimit

/-- `retain`: what is not listed goes. -/
def retain (ids : List String) : SharedCache :=
  { cache with memos := cache.memos.filter (fun id _ => ids.contains id) : SharedCache }.enforceLimit

end SharedCache

end PeerCove
