/-
Module: PeerCove.Proofs.CacheAgreement
Layer: Proofs
Purpose: When a member that connects again has what the host would show it in every column of its
  cache: as long as nothing changes what it is shown of a memo without a new revision of the memo.
Trusted boundary: none
Main exports: SharedDb.shown, Announced, SyncRun.Agrees, sync_agrees, permission_overlooked
-/
import PeerCove.Library.Runs
import PeerCove.Memo.CacheSync
import PeerCove.Proofs.CacheEviction
import PeerCove.Proofs.StoreChanges

namespace PeerCove

open Stateful

/-- What the actor is shown of a memo, were it not in the trash and nobody editing it. -/
def SharedDb.shown (db : SharedDb) (actor : Actor) (id : String) : Option CachedMemo :=
  (db.row? id).map (fun row =>
    (({ row with deletedAt := none } : Row).detail actor (db.permContext id)).columns)

/-- The columns of a copy but for who is editing. -/
def CachedMemo.unlocked (copy : CachedMemo) : CachedMemo :=
  { copy with lockedBy := none }

/-! ### What a request does to what is shown -/

section Shown

variable {db db' : SharedDb} {actor : Actor} {id : String} {row : Row}

theorem shown_of_row? (present : db.row? id = some row) :
    db.shown actor id =
      some (({ row with deletedAt := none } : Row).detail actor (db.permContext id)).columns := by
  rw [SharedDb.shown, present]
  rfl

theorem row?_of_shown {memo : CachedMemo} (seen : db.shown actor id = some memo) :
    ∃ row, db.row? id = some row ∧
      (({ row with deletedAt := none } : Row).detail actor (db.permContext id)).columns = memo :=
  Option.map_eq_some_iff.mp seen

theorem shown_congr (rows : db'.row? id = db.row? id)
    (context : db'.permContext id = db.permContext id) :
    db'.shown actor id = db.shown actor id := by
  rw [SharedDb.shown, SharedDb.shown, rows, context]

theorem shown_congr_tables (same : db'.memoTables = db.memoTables) (actor : Actor) (id : String) :
    db'.shown actor id = db.shown actor id :=
  shown_congr (SharedDb.row?_congr same id) (SharedDb.permContext_congr same id)

/-- A memo outside the trash is shown as it is fetched. -/
theorem shown_present (present : db.row? id = some row) (outside : row.deletedAt = none) :
    db.shown actor id = some (row.detail actor (db.permContext id)).columns := by
  rw [shown_of_row? present]
  have same : ({ row with deletedAt := none } : Row) = row := by
    rw [← outside]
  rw [same]

theorem shown_setMemo_of_ne (db : SharedDb) (change : MemoRow → MemoRow) {other : String}
    (differ : id ≠ other) : (db.setMemo other change).shown actor id = db.shown actor id := by
  apply shown_congr
  · rw [SharedStore.row?_setMemo, if_neg differ]
  · rfl

/-- Putting a memo into the trash, or taking it out, changes nothing else of it. -/
theorem shown_setMemo_trash (db : SharedDb) (other : String) {change : MemoRow → MemoRow}
    (same : ∀ memo, { change memo with deletedAt := none } = { memo with deletedAt := none }) :
    (db.setMemo other change).shown actor id = db.shown actor id := by
  by_cases equal : id = other
  · subst equal
    rw [SharedDb.shown, SharedDb.shown, SharedStore.row?_setMemo, if_pos rfl, Option.map_map]
    refine congrArg (fun shown => (db.row? id).map shown) (funext (fun row => ?_))
    exact congrArg (fun columns : MemoRow =>
      (({ columns with id := row.id, commentCount := row.commentCount } : Row).detail actor
        (db.permContext id)).columns) (same row.toMemoRow)
  · exact shown_setMemo_of_ne db change equal

theorem shown_purgeMemo (db : SharedDb) (other : String) (now : Nat) :
    (db.purgeMemo other now).shown actor id = if id = other then none else db.shown actor id := by
  by_cases equal : id = other
  · subst equal
    rw [if_pos rfl, SharedDb.shown, SharedDb.row?, SharedDb.purgeMemo, Table.get?_erase, if_pos rfl]
    rfl
  · rw [if_neg equal]
    apply shown_congr
    · have comments : (db.memoComments.filter (fun _ comment => comment.memoId ≠ other)).filter
          (fun _ comment => comment.memoId = id)
            = db.memoComments.filter (fun _ comment => comment.memoId = id) := by
        apply Table.filter_filter_of_imp
        intro _ comment own
        have same : comment.memoId = id := of_decide_eq_true own
        simp [same, equal]
      have kept : (db.purgeMemo other now).commentCount id = db.commentCount id :=
        congrArg Table.size comments
      rw [SharedDb.row?, SharedDb.row?, SharedDb.purgeMemo, Table.get?_erase, if_neg equal]
      refine congrArg (fun read => (db.memos.get? id).map read) (funext (fun columns => ?_))
      rw [SharedDb.toRow, SharedDb.toRow]
      exact congrArg (fun count => ({ columns with id := id, commentCount := count } : Row)) kept
    · rw [SharedDb.permContext, SharedDb.permContext, SharedDb.purgeMemo]
      have keeps : decide (id ≠ other) = true := decide_eq_true equal
      exact congrArg₂ PermContext.mk
        (Table.project_filter db.memoPerms (fun owner => decide (owner ≠ other)) keeps)
        (Table.project_filter db.memoGroupPerms (fun owner => decide (owner ≠ other)) keeps)

/-- What is shown has the content of the memo. -/
theorem content_of_shown {memo : CachedMemo} (seen : db.shown actor id = some memo) :
    db.content id = some (memo.revision, memo.title, memo.body) := by
  obtain ⟨row, present, rfl⟩ := row?_of_shown seen
  exact SharedDb.content_of_row? present

/-- A memo whose content is as before was shown before, with the same revision. -/
theorem shown_of_content {memo : CachedMemo} {actor' : Actor}
    (same : db'.content id = db.content id) (seen : db'.shown actor' id = some memo) :
    ∃ old, db.shown actor id = some old ∧ old.revision = memo.revision := by
  have content := content_of_shown seen
  rw [same] at content
  obtain ⟨columns, stored, equal⟩ := Option.map_eq_some_iff.mp content
  refine ⟨_, shown_of_row? (SharedDb.row?_eq_some.mpr ⟨columns, stored, rfl⟩), ?_⟩
  exact congrArg Prod.fst equal

end Shown

/-- Requests that change what is shown of a memo and leave its revision. -/
def SharedMemoOp.unversioned : SharedMemoOp → Bool
  | .setPerms .. | .folderDelete _ | .commentAdd .. | .commentDelete .. => true
  | _ => false

def SharedMemoOp.creates : SharedMemoOp → Bool
  | .create .. => true
  | _ => false

/-- After a step: the memo is as it was, or has a later revision; or it has the same revision, if
the step is one of those that leave it. -/
def Follows (unversioned : Bool) (before after : Option CachedMemo) : Prop :=
  ∀ new, after = some new → ∃ old, before = some old ∧ old.revision ≤ new.revision ∧
    (unversioned = false → old.revision = new.revision → new = old)

section Follows

variable {db db' : SharedDb} {reader : Actor} {id : String} {unversioned : Bool}

theorem follows_of_eq {before after : Option CachedMemo} (same : after = before) :
    Follows unversioned before after := by
  intro new seen
  rw [same] at seen
  exact ⟨new, seen, le_rfl, fun _ _ => rfl⟩

theorem follows_none (before : Option CachedMemo) : Follows unversioned before none := by
  intro new seen
  cases seen

theorem follows_of_content {reader' : Actor} (same : db'.content id = db.content id) :
    Follows true (db.shown reader id) (db'.shown reader' id) := by
  intro new seen
  obtain ⟨old, before, revision⟩ := shown_of_content same seen
  exact ⟨old, before, revision.le, fun versioned => absurd versioned (by simp)⟩

/-- New content comes with the next revision. -/
theorem follows_withContent {other title body : String} {now : Nat} {actor : Actor} {row : Row}
    (present : db.row? other = some row)
    (after : db'.memoTables =
      (db.setMemo other (SharedStore.withContent now actor title body)).memoTables) :
    Follows unversioned (db.shown reader id) (db'.shown reader id) := by
  rw [shown_congr_tables after]
  by_cases equal : id = other
  · subst equal
    intro new seen
    have content := content_of_shown seen
    rw [SharedStore.content_withContent present] at content
    have next : row.revision + 1 = new.revision := congrArg Prod.fst (Option.some.inj content)
    refine ⟨_, shown_of_row? present, ?_⟩
    have before : ((({ row with deletedAt := none } : Row).detail reader
      (db.permContext id)).columns).revision = row.revision := rfl
    rw [before]
    exact ⟨by omega, fun _ same => absurd same (by omega)⟩
  · exact follows_of_eq (shown_setMemo_of_ne db _ equal)

/-- What a request does to what is shown of a memo it does not create. -/
theorem request_follows {env : StoreEnv} {actor : Actor} {op : SharedMemoOp}
    (change : SharedStore.StoreChange env actor db db' op) (reader : Actor)
    (old : op.creates = true → db.memos.get? env.newId = none → id ≠ env.newId) :
    Follows op.unversioned (db.shown reader id) (db'.shown reader id) := by
  cases change with
  | quiet op same => exact follows_of_eq (shown_congr_tables same reader id)
  | create title body folderId unused after =>
      rw [shown_congr_tables after]
      apply follows_of_eq
      apply shown_congr
      · have differ := old rfl unused
        rw [SharedDb.row?, SharedDb.row?, SharedDb.insertMemo, Table.get?_insert_of_ne _ differ]
        rfl
      · rfl
  | update other base title body row present edit current after =>
      exact follows_withContent present after
  | historyRestore other hid row version present edit stored after =>
      exact follows_withContent present after
  | trash other row present manage after =>
      rw [after]
      apply follows_of_eq
      apply shown_setMemo_trash
      intro memo
      split
      · rfl
      · rfl
  | restore other row present manage after =>
      rw [after]
      apply follows_of_eq
      apply shown_setMemo_trash
      intro memo
      rfl
  | deleteForever other row present manage trashed after =>
      rw [after, shown_purgeMemo]
      split
      · exact follows_none _
      · exact follows_of_eq rfl
  | setPerms other everyone members groups row present manage after =>
      apply follows_of_content
      rw [after, SharedStore.content_withPerms]
  | folderDelete other admin after =>
      apply follows_of_content
      rw [SharedDb.content_congr after, SharedStore.content_withoutFolder]
  | commentAdd other body row present visible unused after =>
      apply follows_of_content
      rw [after]
      rfl
  | commentDelete other commentId row comment present visible found own after =>
      apply follows_of_content
      rw [after]
      rfl

theorem keeps_close (now since : Nat) (other : String) :
    Keeps SharedDb.memoTables (SharedStore.snapshotIfRevisionChanged now other since) := by
  apply ((SharedStore.readOnly_row other).keeps _).bind
  intro row
  split
  · exact ((SharedStore.readOnly_row other).keeps _).bind (fun _ => keeps_execute (fun _ => rfl))
  · exact (readOnly_pure _).keeps _

theorem purges_follow (now : Nat) (ids : List String) (db : SharedDb) :
    Follows unversioned (db.shown reader id)
      ((ids.foldl (fun db other => db.purgeMemo other now) db).shown reader id) := by
  induction ids generalizing db with
  | nil => exact follows_of_eq rfl
  | cons other ids ih =>
      have rest := ih (db.purgeMemo other now)
      rw [shown_purgeMemo] at rest
      by_cases equal : id = other
      · rw [if_pos equal] at rest
        intro new seen
        obtain ⟨old, before, _⟩ := rest new seen
        cases before
      · rw [if_neg equal] at rest
        exact rest

theorem purge_follows (now : Nat) (db : SharedDb) :
    Follows unversioned (db.shown reader id)
      ((SharedStore.purgeExpired now db).2.shown reader id) :=
  purges_follow now (SharedStore.expiredTrash now db) db

end Follows

/-! ### The synchronisation -/

/-- The copy is what the host shows of the memo now, in every column. -/
def Agreeing (holder : String → Option String) (actor : Actor) (db : SharedDb) (id : String)
    (copy : CachedMemo) : Prop :=
  ∃ memo, (SharedStore.get actor id db).1 = .ok memo ∧ memo.deletedAt = none ∧
    copy = ({ memo with lockedBy := holder id } : SharedMemoDetail).columns

/-- No copy is ahead of the host, and copies of the present revision are what the host shows. -/
def CurrentCopies (db : SharedDb) (actor : Actor) (cache : SharedCache) : Prop :=
  ∀ id copy, cache.memos.get? id = some copy → ∀ shown, db.shown actor id = some shown →
    copy.revision ≤ shown.revision ∧ (copy.revision = shown.revision → copy.unlocked = shown)

/-- An entry of the host's listing. -/
def Listed (holder : String → Option String) (actor : Actor) (db : SharedDb)
    (memo : SharedMemoSummary) : Prop :=
  ∃ row, db.row? memo.id = some row ∧ row.deletedAt = none ∧
    row.visibleTo actor (db.permContext memo.id) = true ∧ memo.revision = row.revision ∧
    memo.lockedBy = holder memo.id

namespace SharedCache

variable {cache : SharedCache} {id : String} {copy : CachedMemo}
  {fts : String → MemoRow → Bool} {holder : String → Option String} {actor : Actor}
  {db : SharedDb} {memo : SharedMemoSummary} {memos : List SharedMemoSummary}
  {state : SharedCache × List String}

/-- What is left of a cache was in it. -/
theorem get?_enforceLimit (kept : cache.enforceLimit.memos.get? id = some copy) :
    cache.memos.get? id = some copy := by
  obtain ⟨evicted, left, eviction, _, remains, _⟩ := enforceLimitWith_evicts CACHE_MAX_BYTES cache
  have stays : (id, copy) ∈ left := remains.mem_iff.mp (Table.get?_eq_some.mp kept)
  exact Table.get?_eq_some.mpr (eviction.same.mem_iff.mp (List.mem_append_right evicted stays))

theorem get?_upsert {written : SharedMemoDetail}
    (kept : (cache.upsert written).memos.get? id = some copy) :
    (id = written.id ∧ copy = written.columns) ∨
      (id ≠ written.id ∧ cache.memos.get? id = some copy) := by
  have found := get?_enforceLimit kept
  rw [Table.get?_insert] at found
  by_cases same : id = written.id
  · rw [if_pos same] at found
    exact Or.inl ⟨same, (Option.some.inj found).symm⟩
  · rw [if_neg same] at found
    exact Or.inr ⟨same, found⟩

theorem get?_retain {ids : List String} (kept : (cache.retain ids).memos.get? id = some copy) :
    id ∈ ids ∧ cache.memos.get? id = some copy := by
  have found := get?_enforceLimit kept
  rw [Table.get?_filter] at found
  obtain ⟨stored, listed⟩ := Option.filter_eq_some_iff.mp found
  exact ⟨by simpa using listed, stored⟩

theorem get?_setLock (cache : SharedCache) (other : String) (editor : Option String) :
    (cache.setLock other editor).memos.get? id =
      if id = other then (cache.memos.get? id).map (fun copy => { copy with lockedBy := editor })
      else cache.memos.get? id :=
  Table.get?_update cache.memos other id _

theorem listed_of_mem (member : memo ∈ listed fts holder actor db) :
    Listed holder actor db memo := by
  obtain ⟨summary, shown, rfl⟩ := List.mem_map.mp member
  obtain ⟨row, kept, rfl⟩ := List.mem_map.mp shown
  obtain ⟨ordered, visible⟩ := List.mem_filter.mp kept
  obtain ⟨stored, matches_⟩ := List.mem_filter.mp ((List.mem_insertionSort _).mp ordered)
  have outside : row.deletedAt = none := by
    simpa [SharedStore.queryMatches] using matches_
  exact ⟨row, SharedDb.mem_rows.mp stored, outside, visible, rfl, rfl⟩

/-- A listed memo can be fetched. -/
theorem fetched_of_listed (shown : Listed holder actor db memo) :
    ∃ detail, SharedCache.fetched holder actor db memo.id = some detail ∧ detail.id = memo.id ∧
      Agreeing holder actor db memo.id detail.columns := by
  obtain ⟨row, present, outside, visible, _⟩ := shown
  have done := SharedStore.get_ok.mpr ⟨row, present, visible, rfl, rfl⟩
  refine ⟨{ row.detail actor (db.permContext memo.id) with lockedBy := holder memo.id }, ?_,
    (SharedDb.row?_isSome present).2.1, ?_⟩
  · rw [SharedCache.fetched, done]
  · exact ⟨_, by rw [done], outside, rfl⟩

/-- A copy of the present revision, with the present editor, is what is fetched. -/
theorem agreeing_of_current (shown : Listed holder actor db memo)
    (stored : cache.memos.get? memo.id = some copy) (current : CurrentCopies db actor cache)
    (revision : copy.revision = memo.revision) :
    Agreeing holder actor db memo.id { copy with lockedBy := memo.lockedBy } := by
  obtain ⟨row, present, outside, visible, sameRevision, editor⟩ := shown
  have done := SharedStore.get_ok.mpr ⟨row, present, visible, rfl, rfl⟩
  refine ⟨row.detail actor (db.permContext memo.id), by rw [done], outside, ?_⟩
  have equal := (current memo.id copy stored _ (shown_present present outside)).2
    (revision.trans sameRevision)
  rw [editor]
  exact congrArg (fun columns : CachedMemo => { columns with lockedBy := holder memo.id }) equal

/-- The copy is to be fetched, or it agrees. -/
def Settled (holder : String → Option String) (actor : Actor) (db : SharedDb)
    (state : SharedCache × List String) (id : String) : Prop :=
  ∀ copy, state.1.memos.get? id = some copy → id ∈ state.2 ∨ Agreeing holder actor db id copy

/-- One pass of the loop settles its memo and unsettles none. -/
theorem compareListed_spec (shown : Listed holder actor db memo)
    (current : CurrentCopies db actor state.1) :
    CurrentCopies db actor (compareListed state memo).1 ∧
      (∀ other ∈ (compareListed state memo).2, other ∈ state.2 ∨ other = memo.id) ∧
      ∀ other, other = memo.id ∨ Settled holder actor db state other →
        Settled holder actor db (compareListed state memo) other := by
  have pushed : CurrentCopies db actor state.1 ∧
      (∀ other ∈ state.2 ++ [memo.id], other ∈ state.2 ∨ other = memo.id) ∧
      ∀ other, other = memo.id ∨ Settled holder actor db state other →
        Settled holder actor db (state.1, state.2 ++ [memo.id]) other := by
    refine ⟨current, fun other member => ?_, fun other settled copy stored => ?_⟩
    · exact (List.mem_append.mp member).imp_right List.mem_singleton.mp
    · rcases settled with rfl | settled
      · exact Or.inl (List.mem_append_right _ (List.mem_singleton.mpr rfl))
      · exact (settled copy stored).imp_left (List.mem_append_left _)
  rw [compareListed]
  cases found : state.1.memos.get? memo.id with
  | none =>
      rw [SharedCache.revision, found]
      exact pushed
  | some kept =>
      rw [SharedCache.revision, found]
      dsimp only [Option.map_some]
      by_cases same : kept.revision = memo.revision
      · rw [if_pos same]
        refine ⟨?_, fun other member => Or.inl member, ?_⟩
        · intro other copy stored seen present
          rw [get?_setLock] at stored
          split at stored
          · obtain ⟨old, before, rfl⟩ := Option.map_eq_some_iff.mp stored
            exact current other old before seen present
          · exact current other copy stored seen present
        · intro other settled copy stored
          rw [get?_setLock] at stored
          by_cases equal : other = memo.id
          · subst equal
            rw [if_pos rfl, found] at stored
            obtain rfl := Option.some.inj stored
            exact Or.inr (agreeing_of_current shown found current same)
          · rw [if_neg equal] at stored
            exact (settled.resolve_left equal) copy stored
      · rw [if_neg same]
        exact pushed

/-- The whole loop. -/
theorem compareAll_spec (all : ∀ memo ∈ memos, Listed holder actor db memo)
    (current : CurrentCopies db actor state.1) :
    (∀ other ∈ (memos.foldl compareListed state).2,
      other ∈ state.2 ∨ other ∈ memos.map SharedMemoSummary.id) ∧
      ∀ other, other ∈ memos.map SharedMemoSummary.id ∨ Settled holder actor db state other →
        Settled holder actor db (memos.foldl compareListed state) other := by
  induction memos generalizing state with
  | nil =>
      refine ⟨fun other member => Or.inl member, fun other settled => ?_⟩
      exact settled.resolve_left List.not_mem_nil
  | cons memo rest ih =>
      obtain ⟨kept, ids, settles⟩ := compareListed_spec (all memo List.mem_cons_self) current
      obtain ⟨later, settled⟩ :=
        ih (fun other member => all other (List.mem_cons_of_mem _ member)) kept
      rw [List.foldl_cons, List.map_cons]
      constructor
      · intro other member
        rcases later other member with before | inRest
        · rcases ids other before with old | rfl
          · exact Or.inl old
          · exact Or.inr List.mem_cons_self
        · exact Or.inr (List.mem_cons_of_mem _ inRest)
      · intro other before
        apply settled
        rcases before with member | old
        · rcases List.mem_cons.mp member with rfl | inRest
          · exact Or.inr (settles _ (Or.inl rfl))
          · exact Or.inl inRest
        · exact Or.inr (settles _ (Or.inr old))

/-- The memos found out of date are fetched one after the other. -/
theorem refetchAll_spec {stale : List String}
    (fetchable : ∀ id ∈ stale, ∃ detail, fetched holder actor db id = some detail ∧
      detail.id = id ∧ Agreeing holder actor db id detail.columns)
    (settled : ∀ id copy, cache.memos.get? id = some copy →
      id ∈ stale ∨ Agreeing holder actor db id copy) :
    ∀ id copy, (stale.foldl (refetch holder actor db) cache).memos.get? id = some copy →
      Agreeing holder actor db id copy := by
  induction stale generalizing cache with
  | nil =>
      intro id copy stored
      exact (settled id copy stored).resolve_left List.not_mem_nil
  | cons first rest ih =>
      apply ih (fun id member => fetchable id (List.mem_cons_of_mem _ member))
      intro id copy stored
      obtain ⟨detail, answer, named, agrees⟩ := fetchable first List.mem_cons_self
      rw [refetch, answer] at stored
      rcases get?_upsert stored with ⟨same, rfl⟩ | ⟨differ, before⟩
      · rw [same, named]
        exact Or.inr agrees
      · rcases settled id copy before with member | done
        · refine Or.inl ((List.mem_cons.mp member).resolve_left ?_)
          rw [← named]
          exact differ
        · exact Or.inr done

/-- After a synchronisation every copy is what the host shows. -/
theorem memoSync_agrees (fts : String → MemoRow → Bool) (holder : String → Option String)
    (current : CurrentCopies db actor cache) :
    ∀ id copy, (cache.memoSync fts holder actor db).memos.get? id = some copy →
      Agreeing holder actor db id copy := by
  have all : ∀ memo ∈ listed fts holder actor db, Listed holder actor db memo :=
    fun memo member => listed_of_mem member
  have kept : CurrentCopies db actor
      (cache.retain ((listed fts holder actor db).map SharedMemoSummary.id)) :=
    fun id copy stored => current id copy (get?_retain stored).2
  obtain ⟨ids, settles⟩ :=
    compareAll_spec all (show CurrentCopies db actor (cache.retain _, ([] : List String)).1 from kept)
  refine refetchAll_spec (fun id member => ?_) (fun id copy stored => ?_)
  · have inListing := (ids id member).resolve_left List.not_mem_nil
    obtain ⟨memo, listed, rfl⟩ := List.mem_map.mp inListing
    exact fetched_of_listed (all memo listed)
  · refine settles id ?_ copy stored
    by_cases inListing : id ∈ (listed fts holder actor db).map SharedMemoSummary.id
    · exact Or.inl inListing
    · exact Or.inr (fun copy stored => absurd (get?_retain stored).1 inListing)

theorem current_of_agreeing
    (agreeing : ∀ id copy, cache.memos.get? id = some copy → Agreeing holder actor db id copy) :
    CurrentCopies db actor cache := by
  intro id copy stored shown seen
  obtain ⟨memo, read, outside, rfl⟩ := agreeing id copy stored
  cases done : SharedStore.get actor id db with
  | mk result after =>
      rw [done] at read
      cases read
      obtain ⟨row, present, _, rfl, _⟩ := SharedStore.get_ok.mp done
      rw [shown_present present outside] at seen
      obtain rfl := Option.some.inj seen
      exact ⟨le_rfl, fun _ => rfl⟩

end SharedCache

/-! ### Runs -/

namespace SyncRun

/-- Nothing that the member keeps at the present revision is shown another way after the step. -/
def KeepsShown (run next : SyncRun) : Prop :=
  ∀ entry ∈ run.cache.memos.rows, ∀ before ∈ run.db.shown run.actor entry.1,
    ∀ after ∈ next.db.shown next.actor entry.1, entry.2.revision = before.revision →
      after = before

instance (run next : SyncRun) : Decidable (KeepsShown run next) :=
  inferInstanceAs (Decidable (∀ entry ∈ run.cache.memos.rows,
    ∀ before ∈ run.db.shown run.actor entry.1, ∀ after ∈ next.db.shown next.actor entry.1,
      entry.2.revision = before.revision → after = before))

/-- What changes the permissions, the folder, the number of comments or the rights of the member
leaves what it is shown of the memos it keeps; and no memo has the id of one that is gone and that
it keeps. -/
def Announced : SyncEvent → SyncRun → Prop
  | .request env actor op, run =>
      (op.unversioned = true →
        KeepsShown run { run with db := (SharedStore.perform env actor op run.db).2 }) ∧
      (op.creates = true → run.db.memos.get? env.newId = none →
        run.cache.memos.get? env.newId = none)
  | .member name groupIds admin, run =>
      KeepsShown run { run with
        actor := { run.actor with name := name, groupIds := groupIds, admin := admin } }
  | .close .., _ | .purge .., _ | .connect .., _ => True

instance : ∀ event run, Decidable (Announced event run)
  | .request .., _ => inferInstanceAs (Decidable ((_ → KeepsShown _ _) ∧ (_ → _ → _)))
  | .member .., _ => inferInstanceAs (Decidable (KeepsShown _ _))
  | .close .., _ | .purge .., _ | .connect .., _ => isTrue trivial

/-- Every copy of the member is what the host shows, in every column. -/
def Agrees (holder : String → Option String) (run : SyncRun) : Prop :=
  ∀ id copy, run.cache.memos.get? id = some copy → Agreeing holder run.actor run.db id copy

variable {run next : SyncRun} {event : SyncEvent}

/-- A step that keeps what is shown of current copies keeps them current. -/
theorem current_step {unversioned : Bool} (current : CurrentCopies run.db run.actor run.cache)
    (follows : ∀ id copy, run.cache.memos.get? id = some copy →
      Follows unversioned (run.db.shown run.actor id) (next.db.shown next.actor id))
    (keeps : unversioned = true → KeepsShown run next) (cache : next.cache = run.cache) :
    CurrentCopies next.db next.actor next.cache := by
  rw [cache]
  intro id copy stored shown seen
  obtain ⟨old, before, revision, same⟩ := follows id copy stored shown seen
  obtain ⟨behind, agrees⟩ := current id copy stored old before
  refine ⟨behind.trans revision, fun equal => ?_⟩
  have unchanged : copy.revision = old.revision := by omega
  rw [agrees unchanged]
  symm
  cases versioned : unversioned with
  | true =>
      exact keeps versioned (id, copy) (Table.get?_eq_some.mp stored) old before shown seen
        unchanged
  | false => exact same versioned (by omega)

theorem announced_step (current : CurrentCopies run.db run.actor run.cache)
    (announced : Announced event run) (happens : step event run = some next) :
    CurrentCopies next.db next.actor next.cache := by
  cases event with
  | request env actor op =>
      cases happens
      refine current_step current (fun id copy stored => ?_) announced.1 rfl
      apply request_follows (SharedStore.perform_change env actor op run.db)
      intro creates unused same
      have absent := announced.2 creates unused
      rw [← same, stored] at absent
      cases absent
  | close now id since =>
      cases happens
      exact current_step current
        (fun id _ _ => follows_of_eq (shown_congr_tables (keeps_close now since _ run.db) _ id))
        (fun unversioned : false = true => absurd unversioned Bool.false_ne_true) rfl
  | purge now =>
      cases happens
      exact current_step current (fun _ _ _ => purge_follows now run.db)
        (fun unversioned : false = true => absurd unversioned Bool.false_ne_true) rfl
  | member name groupIds admin =>
      cases happens
      exact current_step current (fun _ _ _ => follows_of_content rfl) (fun _ => announced) rfl
  | connect fts holder =>
      cases happens
      exact SharedCache.current_of_agreeing (SharedCache.memoSync_agrees fts holder current)

/-- In every run of requests, ends of edit locks, deletions, changes of the member's rights and
connections of the member, in which nothing changes what the member is shown of a memo it keeps
without a new revision: when the member connects, its copies are what the host shows. -/
theorem sync_agrees {db : SharedDb} {member : Actor} {events : List SyncEvent}
    {fts : String → MemoRow → Bool} {holder : String → Option String} {final : SyncRun}
    (along : Runs.Along step Announced events (starting db member))
    (reached : Runs.run step (events ++ [.connect fts holder]) (starting db member)
      = some final) :
    final.Agrees holder := by
  obtain ⟨middle, before, last⟩ := Runs.run_append.mp reached
  have current : CurrentCopies middle.db middle.actor middle.cache :=
    Runs.run_invariant (fun run => CurrentCopies run.db run.actor run.cache)
      (fun _ _ _ current announced happens => announced_step current announced happens)
      (fun _ _ stored => absurd stored (by simp [starting])) along before
  cases last
  exact SharedCache.memoSync_agrees fts holder current

/-! ### Examples -/

def syncHost : Actor := Actor.host "host"

def syncMember : Actor := Actor.member "m1" "ann"

def noSearch : String → MemoRow → Bool := fun _ _ => false

def nobodyEdits : String → Option String := fun _ => none

/-- The host writes a memo that everybody may edit, the member connects, and the host takes the
permission away. -/
def permissionTaken : List SyncEvent :=
  [.request ⟨1, "a", noSearch⟩ syncHost (.create "plan" "one" none),
    .request ⟨2, "x", noSearch⟩ syncHost (.setPerms "a" .editor [] none),
    .connect noSearch nobodyEdits,
    .request ⟨3, "y", noSearch⟩ syncHost (.setPerms "a" .viewer [] none)]

/-- The same, and the host writes the memo anew. -/
def permissionRenewed : List SyncEvent :=
  permissionTaken.take 3 ++ [.request ⟨3, "y", noSearch⟩ syncHost (.update "a" 1 "plan" "two"),
    .request ⟨4, "z", noSearch⟩ syncHost (.setPerms "a" .viewer [] none)]

theorem sync_agrees_renewed :
    ∃ final, Runs.run step (permissionRenewed ++ [.connect noSearch nobodyEdits])
        (starting SharedDb.empty syncMember) = some final ∧
      final.cache.memos.size = 1 ∧ final.Agrees nobodyEdits := by
  have along : Runs.Along step Announced permissionRenewed (starting SharedDb.empty syncMember) := by
    decide +kernel
  exact ⟨_, rfl, by decide +kernel, sync_agrees along rfl⟩

theorem not_agrees_of_edit {id : String} {can cannot : Bool}
    (copied : (run.cache.memos.get? id).map CachedMemo.canEdit = some can)
    (shown : (SharedStore.get run.actor id run.db).1.toOption.map SharedMemoDetail.canEdit
      = some cannot) (differ : can ≠ cannot) (holder : String → Option String) :
    ¬ run.Agrees holder := by
  intro agrees
  obtain ⟨copy, stored, rfl⟩ := Option.map_eq_some_iff.mp copied
  obtain ⟨memo, read, _, rfl⟩ := agrees id copy stored
  rw [read] at shown
  exact differ (Option.some.inj shown)

/-- The member connects again, and its copy says that it may edit the memo. -/
theorem permission_overlooked :
    ∃ final, Runs.run step (permissionTaken ++ [.connect noSearch nobodyEdits])
        (starting SharedDb.empty syncMember) = some final ∧
      ((final.cache.memos.get? "a").map CachedMemo.canEdit) = some true ∧
      ((SharedStore.get final.actor "a" final.db).1.toOption.map SharedMemoDetail.canEdit)
        = some false ∧
      ¬ final.Agrees nobodyEdits := by
  refine ⟨_, rfl, ?copied, ?shown,
    @not_agrees_of_edit _ "a" true false ?copied ?shown (by decide) nobodyEdits⟩
  case copied => decide +kernel
  case shown => decide +kernel

end SyncRun

end PeerCove
