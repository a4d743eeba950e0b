/-
Module: PeerCove.Proofs.LinkAgreement
Layer: Proofs
Purpose: When links between memos lead to the same memos on the host and in a member's cache.
Trusted boundary: none
Main exports: HoldsView, NewestSeen, titles_agree, backlinks_agree, links_agree
-/
import PeerCove.Memo.CacheStore
import PeerCove.Proofs.StoreSteps
import Mathlib.Data.List.Dedup

namespace PeerCove

open Stateful SharedStore

/-! ### The newest row -/

section

variable {ρ : Type} {key : ρ → Nat} {rows : List ρ}

/-- The head of the rows in the order `updated_at DESC` is a row that none is newer than. -/
theorem newest_spec {newest : ρ}
    (found : (rows.insertionSort (fun one two => key two ≤ key one)).head? = some newest) :
    newest ∈ rows ∧ ∀ other ∈ rows, key other ≤ key newest := by
  have total : Std.Total (fun one two : ρ => key two ≤ key one) :=
    ⟨fun one two => Nat.le_total (key two) (key one)⟩
  have trans : IsTrans ρ (fun one two => key two ≤ key one) :=
    ⟨fun _ _ _ first second => Nat.le_trans second first⟩
  have sorted := List.pairwise_insertionSort (fun one two : ρ => key two ≤ key one) rows
  constructor
  · exact (List.mem_insertionSort _).mp (List.mem_of_mem_head? found)
  · intro other listed
    have member := (List.mem_insertionSort (fun one two : ρ => key two ≤ key one)).mpr listed
    generalize rows.insertionSort (fun one two => key two ≤ key one) = sequence at found sorted member
    cases sequence with
    | nil => cases found
    | cons first rest =>
        cases found
        rcases List.mem_cons.mp member with rfl | later
        · exact Nat.le_refl _
        · exact (List.pairwise_cons.mp sorted).1 other later

theorem newest_exists {row : ρ} (listed : row ∈ rows) :
    ∃ newest, (rows.insertionSort (fun one two => key two ≤ key one)).head? = some newest := by
  have member := (List.mem_insertionSort (fun one two : ρ => key two ≤ key one)).mpr listed
  cases sequence : rows.insertionSort (fun one two => key two ≤ key one) with
  | nil =>
      rw [sequence] at member
      cases member
  | cons first rest => exact ⟨first, rfl⟩

end

/-! ### A cache that holds the view of its member -/

/-- The cache holds what the host shows the actor of each memo outside the trash, and nothing else;
who holds a lock is the service's affair. -/
structure HoldsView (db : SharedDb) (actor : Actor) (cache : SharedCache) : Prop where
  copies : ∀ id memo, cache.memos.get? id = some memo → ∃ detail,
    detailIfVisible actor id db = (.ok (some detail), db) ∧
      { memo with lockedBy := none } = detail.columns
  complete : ∀ id detail, detailIfVisible actor id db = (.ok (some detail), db) →
    ∃ memo, cache.memos.get? id = some memo

variable {db : SharedDb} {actor : Actor} {cache : SharedCache}

/-- A row the actor is shown. -/
def Shown (db : SharedDb) (actor : Actor) (row : Row) : Prop :=
  row ∈ db.rows ∧ row.deletedAt = none ∧ row.visibleTo actor (db.permContext row.id) = true

theorem detailIfVisible_some {id : String} {detail : SharedMemoDetail} :
    detailIfVisible actor id db = (.ok (some detail), db) ↔
      ∃ row, Shown db actor row ∧ row.id = id ∧ row.detail actor (db.permContext id) = detail := by
  constructor
  · intro done
    obtain ⟨same, _⟩ := ok_query.mp done
    cases present : db.row? id with
    | none =>
        rw [present] at same
        cases same
    | some row =>
        rw [present] at same
        obtain ⟨_, named, _⟩ := SharedDb.row?_isSome present
        by_cases trashed : row.deletedAt.isSome = true
        · simp only [if_pos trashed] at same
          cases same
        · simp only [if_neg trashed] at same
          by_cases visible : row.visibleTo actor (db.permContext id) = true
          · simp only [if_pos visible] at same
            subst named
            exact ⟨row, ⟨SharedDb.mem_rows.mpr present, by simpa using trashed, visible⟩, rfl,
              Option.some.inj same⟩
          · simp only [if_neg visible] at same
            cases same
  · rintro ⟨row, ⟨listed, live, visible⟩, rfl, rfl⟩
    refine ok_query.mpr ⟨?_, rfl⟩
    simp [SharedDb.mem_rows.mp listed, live, visible]

/-- A copy and the row it was made of. -/
theorem HoldsView.origin (view : HoldsView db actor cache) {id : String} {memo : CachedMemo}
    (copied : (id, memo) ∈ cache.memos.rows) :
    ∃ row, Shown db actor row ∧ row.id = id ∧
      { memo with lockedBy := none } = (row.detail actor (db.permContext row.id)).columns := by
  obtain ⟨detail, shown, same⟩ := view.copies id memo (Table.get?_eq_some.mpr copied)
  obtain ⟨row, seen, rfl, rfl⟩ := detailIfVisible_some.mp shown
  exact ⟨row, seen, rfl, same⟩

theorem HoldsView.copy (view : HoldsView db actor cache) {row : Row}
    (shown : Shown db actor row) :
    ∃ memo, (row.id, memo) ∈ cache.memos.rows ∧
      { memo with lockedBy := none } = (row.detail actor (db.permContext row.id)).columns := by
  have detailed := detailIfVisible_some.mpr ⟨row, shown, rfl, rfl⟩
  obtain ⟨memo, stored⟩ := view.complete row.id _ detailed
  obtain ⟨detail, again, same⟩ := view.copies row.id memo stored
  rw [detailed] at again
  cases again
  exact ⟨memo, Table.get?_eq_some.mp stored, same⟩

/-! ### Titles -/

/-- A memo that a title may stand for. -/
def Titled (db : SharedDb) (title : String) (row : Row) : Prop :=
  row ∈ db.rows ∧ row.title = title ∧ row.deletedAt = none

/-- No memo of the title is newer. -/
def Newest (db : SharedDb) (title : String) (row : Row) : Prop :=
  Titled db title row ∧ ∀ other, Titled db title other → other.updatedAt ≤ row.updatedAt

/-- The newest memo of the title, if there is one, is the only one of its time and the actor sees
it. -/
def NewestSeen (db : SharedDb) (actor : Actor) (title : String) : Prop :=
  ∀ row, Newest db title row →
    row.visibleTo actor (db.permContext row.id) = true ∧
      ∀ other, Newest db title other → other = row

/-- The actor does not see the newest memo of the title. -/
def NewestHidden (db : SharedDb) (actor : Actor) (title : String) : Prop :=
  ∀ row, Newest db title row → row.visibleTo actor (db.permContext row.id) = false

theorem mem_titled {title : String} {row : Row} :
    row ∈ db.rows.filter (fun row => row.title = title && row.deletedAt.isNone) ↔
      Titled db title row := by
  simp [Titled]

theorem titleRow?_newest {title : String} {row : Row} (found : titleRow? title db = some row) :
    Newest db title row := by
  obtain ⟨listed, newest⟩ := newest_spec found
  exact ⟨mem_titled.mp listed, fun other titled => newest other (mem_titled.mpr titled)⟩

theorem titleRow?_exists {title : String} {row : Row} (titled : Titled db title row) :
    ∃ newest, titleRow? title db = some newest :=
  newest_exists (mem_titled.mpr titled)

/-- What the host answers for the titles. -/
def hostTitles (db : SharedDb) (actor : Actor) (titles : List String) : List (String × String) :=
  (titles.dedup.filter (· ≠ "")).filterMap (fun title =>
    match titleRow? title db with
    | none => none
    | some row =>
        if row.visibleTo actor (db.permContext row.id) then some (title, row.id) else none)

theorem resolveTitles_ok (titles : List String) :
    resolveTitles actor titles db = (.ok (hostTitles db actor titles), db) := rfl

theorem mem_asked {titles : List String} {title : String} :
    title ∈ titles.dedup.filter (· ≠ "") ↔ title ∈ titles ∧ title ≠ "" := by
  simp [List.mem_dedup]

theorem mem_hostTitles {titles : List String} {title id : String} :
    (title, id) ∈ hostTitles db actor titles ↔
      (title ∈ titles ∧ title ≠ "") ∧ ∃ row, titleRow? title db = some row ∧
        row.visibleTo actor (db.permContext row.id) = true ∧ row.id = id := by
  unfold hostTitles
  rw [List.mem_filterMap]
  constructor
  · rintro ⟨other, listed, found⟩
    have asked := mem_asked.mp listed
    split at found
    · cases found
    · rename_i row newest
      split at found
      · rename_i visible
        cases found
        exact ⟨asked, row, newest, visible, rfl⟩
      · cases found
  · rintro ⟨asked, row, newest, visible, rfl⟩
    refine ⟨title, mem_asked.mpr asked, ?_⟩
    simp [newest, visible]

theorem mem_cacheTitles {titles : List String} {title id : String} :
    (title, id) ∈ cache.resolveTitles titles ↔
      (title ∈ titles ∧ title ≠ "") ∧ cache.titleId? title = some id := by
  unfold SharedCache.resolveTitles
  rw [List.mem_filterMap]
  constructor
  · rintro ⟨other, listed, found⟩
    obtain ⟨_, newest, same⟩ := Option.map_eq_some_iff.mp found
    cases same
    exact ⟨mem_asked.mp listed, newest⟩
  · rintro ⟨asked, newest⟩
    exact ⟨title, mem_asked.mpr asked, by rw [newest]; rfl⟩

theorem titleId?_spec {title id : String} (found : cache.titleId? title = some id) :
    ∃ memo, (id, memo) ∈ cache.memos.rows ∧ memo.title = title ∧
      ∀ other copy, (other, copy) ∈ cache.memos.rows → copy.title = title →
        copy.updatedAt ≤ memo.updatedAt := by
  obtain ⟨⟨_, memo⟩, newest, rfl⟩ := Option.map_eq_some_iff.mp found
  obtain ⟨listed, largest⟩ := @newest_spec _ (fun entry : String × CachedMemo => entry.2.updatedAt)
    _ _ newest
  obtain ⟨stored, titled⟩ := List.mem_filter.mp listed
  refine ⟨memo, stored, of_decide_eq_true titled, ?_⟩
  intro other copy there same
  exact largest (other, copy) (List.mem_filter.mpr ⟨there, decide_eq_true same⟩)

theorem titleId?_exists {title id : String} {memo : CachedMemo}
    (stored : (id, memo) ∈ cache.memos.rows) (titled : memo.title = title) :
    ∃ newest, cache.titleId? title = some newest := by
  have listed : (id, memo) ∈ cache.memos.rows.filter (fun entry => entry.2.title = title) :=
    List.mem_filter.mpr ⟨stored, decide_eq_true titled⟩
  obtain ⟨newest, found⟩ := @newest_exists _
    (fun entry : String × CachedMemo => entry.2.updatedAt) _ _ listed
  exact ⟨newest.1, Option.map_eq_some_iff.mpr ⟨newest, found, rfl⟩⟩

/-- The newest memo of a title is the newest copy of that title. -/
theorem titleId?_of_newest (view : HoldsView db actor cache) {title : String} {row : Row}
    (newest : Newest db title row) (seen : NewestSeen db actor title) :
    cache.titleId? title = some row.id := by
  obtain ⟨⟨listed, titled, live⟩, largest⟩ := newest
  obtain ⟨visible, only⟩ := seen row ⟨⟨listed, titled, live⟩, largest⟩
  obtain ⟨memo, stored, columns⟩ := view.copy ⟨listed, live, visible⟩
  have memoTitle : memo.title = row.title := congrArg CachedMemo.title columns
  have memoTime : memo.updatedAt = row.updatedAt := congrArg CachedMemo.updatedAt columns
  obtain ⟨id, found⟩ := titleId?_exists stored (memoTitle.trans titled)
  obtain ⟨copy, copied, copyTitled, latest⟩ := titleId?_spec found
  obtain ⟨other, ⟨otherListed, otherLive, _⟩, rfl, otherColumns⟩ := view.origin copied
  have otherTitle : copy.title = other.title := congrArg CachedMemo.title otherColumns
  have otherTime : copy.updatedAt = other.updatedAt := congrArg CachedMemo.updatedAt otherColumns
  have otherTitled : Titled db title other :=
    ⟨otherListed, otherTitle.symm.trans copyTitled, otherLive⟩
  -- the copy is at least as new as the newest memo, and is made of one that is not newer
  have notOlder : row.updatedAt ≤ other.updatedAt := by
    rw [← memoTime, ← otherTime]
    exact latest row.id memo stored (memoTitle.trans titled)
  have otherNewest : Newest db title other :=
    ⟨otherTitled, fun third there => Nat.le_trans (largest third there) notOlder⟩
  rw [found, only other otherNewest]

theorem titles_agree (view : HoldsView db actor cache) {title : String}
    (seen : NewestSeen db actor title) (titles : List String) (id : String) :
    (title, id) ∈ hostTitles db actor titles ↔ (title, id) ∈ cache.resolveTitles titles := by
  rw [mem_hostTitles, mem_cacheTitles]
  apply and_congr_right
  intro _
  constructor
  · rintro ⟨row, found, _, rfl⟩
    exact titleId?_of_newest view (titleRow?_newest found) seen
  · intro found
    obtain ⟨memo, copied, titled, _⟩ := titleId?_spec found
    obtain ⟨other, ⟨listed, live, _⟩, _, columns⟩ := view.origin copied
    have otherTitle : memo.title = other.title := congrArg CachedMemo.title columns
    obtain ⟨row, newest⟩ := titleRow?_exists ⟨listed, otherTitle.symm.trans titled, live⟩
    have first := titleRow?_newest newest
    have same := titleId?_of_newest view first seen
    rw [found] at same
    exact ⟨row, newest, (seen row first).1, (Option.some.inj same).symm⟩

theorem hidden_unresolved {title : String} (hidden : NewestHidden db actor title)
    (titles : List String) (id : String) : (title, id) ∉ hostTitles db actor titles := by
  intro listed
  obtain ⟨_, row, found, visible, _⟩ := mem_hostTitles.mp listed
  rw [hidden row (titleRow?_newest found)] at visible
  cases visible

/-! ### Backlinks -/

/-- A link to a title, as it stands in a body. -/
def linkTo (title : String) : String := "[[" ++ title ++ "]]"

/-- What the host lists for a memo that is shown to the actor. -/
theorem backlinks_ok {target : Row} (shown : Shown db actor target) :
    ∃ listed, backlinks actor target.id db = (.ok listed, db) ∧
      ∀ summary, summary ∈ listed ↔ target.title ≠ "" ∧
        ∃ row, Shown db actor row ∧ row.id ≠ target.id ∧
          Text.likeContains row.body (linkTo target.title) = true ∧
          summary = row.summary actor (db.permContext row.id) := by
  have read : visibleRow actor target.id db =
      (.ok (target, db.permContext target.id), db) :=
    visibleRow_ok.mpr ⟨SharedDb.mem_rows.mp shown.1, rfl, shown.2.2, rfl⟩
  unfold backlinks
  rw [run_bind read]
  by_cases empty : target.title = ""
  · dsimp only
    rw [if_pos empty]
    exact ⟨[], rfl, by simp [empty]⟩
  · dsimp only
    rw [if_neg empty]
    refine ⟨_, rfl, ?_⟩
    intro summary
    simp only [List.mem_map, List.mem_filter, List.mem_insertionSort, Bool.and_eq_true,
      decide_eq_true_eq, Option.isNone_iff_eq_none]
    constructor
    · rintro ⟨row, ⟨⟨listed, ⟨live, apart⟩, links⟩, visible⟩, rfl⟩
      exact ⟨empty, row, ⟨listed, live, visible⟩, apart, links, rfl⟩
    · rintro ⟨_, row, ⟨listed, live, visible⟩, apart, links, rfl⟩
      exact ⟨row, ⟨⟨listed, ⟨live, apart⟩, links⟩, visible⟩, rfl⟩

theorem cacheBacklinks_ok {id : String} {target : CachedMemo}
    (stored : (id, target) ∈ cache.memos.rows) :
    ∃ listed, cache.backlinks id = .ok listed ∧
      ∀ summary, summary ∈ listed ↔ target.title ≠ "" ∧
        ∃ other memo, (other, memo) ∈ cache.memos.rows ∧ other ≠ id ∧
          Text.likeContains memo.body (linkTo target.title) = true ∧
          summary = memo.summary other := by
  have read : cache.get id = .ok target := by
    unfold SharedCache.get
    rw [Table.get?_eq_some.mpr stored]
  unfold SharedCache.backlinks
  rw [read]
  by_cases empty : target.title = ""
  · refine ⟨[], if_pos empty, ?_⟩
    simp [empty]
  · refine ⟨_, if_neg empty, ?_⟩
    intro summary
    simp only [List.mem_map, List.mem_filter, List.mem_insertionSort, Bool.and_eq_true,
      decide_eq_true_eq, Prod.exists]
    constructor
    · rintro ⟨other, memo, ⟨listed, apart, links⟩, rfl⟩
      exact ⟨empty, other, memo, listed, apart, links, rfl⟩
    · rintro ⟨_, other, memo, listed, apart, links, rfl⟩
      exact ⟨other, memo, ⟨listed, apart, links⟩, rfl⟩

/-- A copy is listed as the host lists the memo, but for the lock. -/
theorem summary_copied {row : Row} {memo : CachedMemo} (shown : Shown db actor row)
    (columns : { memo with lockedBy := none } =
      (row.detail actor (db.permContext row.id)).columns) :
    { memo.summary row.id with lockedBy := none } = row.summary actor (db.permContext row.id) := by
  have same : ({ memo with lockedBy := none } : CachedMemo).summary row.id =
      row.summary actor (db.permContext row.id) := by
    rw [columns]
    simp [CachedMemo.summary, SharedMemoDetail.columns, Row.detail, Row.summary, shown.2.1]
  rw [← same]
  simp only [CachedMemo.summary]

/-- Both lists have the same memos. -/
theorem backlinks_agree (view : HoldsView db actor cache) {target : Row}
    (shown : Shown db actor target) :
    ∃ host copies, backlinks actor target.id db = (.ok host, db) ∧
      cache.backlinks target.id = .ok copies ∧
      ∀ summary, summary ∈ host ↔ ∃ copy ∈ copies, { copy with lockedBy := none } = summary := by
  obtain ⟨memo, stored, columns⟩ := view.copy shown
  have title : memo.title = target.title := congrArg CachedMemo.title columns
  obtain ⟨host, answered, hostLists⟩ := backlinks_ok shown
  obtain ⟨copies, read, cacheLists⟩ := cacheBacklinks_ok stored
  refine ⟨host, copies, answered, read, ?_⟩
  intro summary
  rw [hostLists]
  constructor
  · rintro ⟨named, row, seen, apart, links, rfl⟩
    obtain ⟨copy, copied, copyColumns⟩ := view.copy seen
    have body : copy.body = row.body := congrArg CachedMemo.body copyColumns
    refine ⟨copy.summary row.id, (cacheLists _).mpr ⟨title ▸ named, row.id, copy, copied, apart,
      ?_, rfl⟩, summary_copied seen copyColumns⟩
    rw [body, title]
    exact links
  · rintro ⟨_, listed, rfl⟩
    obtain ⟨named, other, copy, copied, apart, links, rfl⟩ := (cacheLists _).mp listed
    obtain ⟨row, seen, rfl, copyColumns⟩ := view.origin copied
    have body : copy.body = row.body := congrArg CachedMemo.body copyColumns
    rw [body, title] at links
    exact ⟨title ▸ named, row, seen, apart, links, summary_copied seen copyColumns⟩

/-! ### Links on the host and in the cache -/

/-- Titles whose newest memo the actor sees, and that have one newest memo, lead to the same memo;
titles whose newest memo is hidden lead nowhere on the host; and memos are linked from the same
memos. -/
theorem links_agree (db : SharedDb) (actor : Actor) (cache : SharedCache)
    (view : HoldsView db actor cache) :
    (∀ titles, ∃ host, resolveTitles actor titles db = (.ok host, db) ∧
      ∀ title,
        (NewestSeen db actor title →
          ∀ id, (title, id) ∈ host ↔ (title, id) ∈ cache.resolveTitles titles) ∧
        (NewestHidden db actor title → ∀ id, (title, id) ∉ host)) ∧
    ∀ target, Shown db actor target →
      ∃ host copies, backlinks actor target.id db = (.ok host, db) ∧
        cache.backlinks target.id = .ok copies ∧
        ∀ summary, summary ∈ host ↔
          ∃ copy ∈ copies, { copy with lockedBy := none } = summary := by
  constructor
  · intro titles
    refine ⟨hostTitles db actor titles, resolveTitles_ok titles, ?_⟩
    intro title
    constructor
    · intro seen
      exact titles_agree view seen titles
    · intro hidden
      exact hidden_unresolved hidden titles
  · intro target shown
    exact backlinks_agree view shown

/-- Two memos of one title: the newer one is hidden from Alice. -/
def twoNotes : SharedDb :=
  (SharedDb.empty.insertMemo "old" {
    title := "note"
    body := "[[note]]"
    folderId := none
    revision := 1
    ownerId := "alice"
    ownerName := "Alice"
    createdAt := 1
    updatedAt := 1
    updatedBy := none
    everyone := .none
    deletedAt := none }).insertMemo "new" {
    title := "note"
    body := ""
    folderId := none
    revision := 1
    ownerId := "bob"
    ownerName := "Bob"
    createdAt := 2
    updatedAt := 2
    updatedBy := none
    everyone := .none
    deletedAt := none }

def aliceActor : Actor where
  memberId := some "alice"
  name := "Alice"
  admin := false

/-- Alice's copies. -/
def aliceCache : SharedCache where
  memos := Table.empty.insert "old" {
    title := "note"
    body := "[[note]]"
    folderId := none
    revision := 1
    ownerId := "alice"
    ownerName := "Alice"
    createdAt := 1
    updatedAt := 1
    updatedBy := none
    canEdit := true
    canManage := true
    lockedBy := none
    commentCount := 0 }

/-- Alice's own memo as the host reads it. -/
def oldNote : Row where
  id := "old"
  commentCount := 0
  title := "note"
  body := "[[note]]"
  folderId := none
  revision := 1
  ownerId := "alice"
  ownerName := "Alice"
  createdAt := 1
  updatedAt := 1
  updatedBy := none
  everyone := .none
  deletedAt := none

theorem oldNote_shown : Shown twoNotes aliceActor oldNote :=
  ⟨List.mem_cons_self, rfl, rfl⟩

theorem aliceCache_holdsView : HoldsView twoNotes aliceActor aliceCache where
  copies := by
    intro id memo stored
    have only := Table.get?_eq_some.mp stored
    rw [show aliceCache.memos.rows = [_] from rfl, List.mem_singleton] at only
    cases only
    refine ⟨_, detailIfVisible_some.mpr ⟨oldNote, oldNote_shown, rfl, rfl⟩, ?_⟩
    decide
  complete := by
    intro id detail shown
    obtain ⟨row, ⟨listed, live, visible⟩, rfl, rfl⟩ := detailIfVisible_some.mp shown
    have ids : ∀ row ∈ twoNotes.rows,
        row.visibleTo aliceActor (twoNotes.permContext row.id) = true → row.id = "old" := by decide
    have stored : (aliceCache.memos.get? "old").isSome = true := by decide
    rw [ids row listed visible]
    exact Option.isSome_iff_exists.mp stored

theorem links_agree_alice :
    ∃ host copies, backlinks aliceActor "old" twoNotes = (.ok host, twoNotes) ∧
      aliceCache.backlinks "old" = .ok copies ∧
      ∀ summary, summary ∈ host ↔ ∃ copy ∈ copies, { copy with lockedBy := none } = summary :=
  (links_agree twoNotes aliceActor aliceCache aliceCache_holdsView).2 oldNote
    oldNote_shown

/-- The cache falls back to the older memo, the host does not. -/
theorem links_disagree :
    HoldsView twoNotes aliceActor aliceCache ∧
      resolveTitles aliceActor ["note"] twoNotes = (.ok [], twoNotes) ∧
      aliceCache.resolveTitles ["note"] = [("note", "old")] := by
  refine ⟨aliceCache_holdsView, rfl, rfl⟩

end PeerCove
