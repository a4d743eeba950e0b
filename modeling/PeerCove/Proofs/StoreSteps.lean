/-
Module: PeerCove.Proofs.StoreSteps
Layer: Proofs
Purpose: What the operations on memos read, check and leave behind when they succeed, and that they
  leave the database alone when they fail.
Trusted boundary: none
Main exports: update_ok, historyRestore_ok, setPerms_ok, create_ok, visibleRow_ok, get_run
-/
import PeerCove.Memo.SharedStore

namespace PeerCove.SharedStore

open Fallible Stateful

variable {now hid : Nat} {actor : Actor} {id newId error kind : String} {db db' : SharedDb}
  {found : Row} {ctx : PermContext}

/-! ### Reads -/

theorem row_ok : row id db = (.ok found, db') ↔ db.row? id = some found ∧ db = db' := by
  simp [row]

theorem readOnly_row (id : String) : ReadOnly (row id) :=
  (readOnly_query _).bind (fun _ => readOnly_expect _ _)

theorem rowAndContext_ok :
    rowAndContext id db = (.ok (found, ctx), db') ↔
      db.row? id = some found ∧ db.permContext id = ctx ∧ db = db' := by
  constructor
  · intro done
    obtain ⟨row, mid, read, done⟩ := ok_bind.mp done
    obtain ⟨present, rfl⟩ := row_ok.mp read
    obtain ⟨entries, rfl, done⟩ := ok_bind_query.mp done
    obtain ⟨same, rfl⟩ := ok_pure.mp done
    obtain ⟨rfl, rfl⟩ := Prod.mk.inj same
    exact ⟨present, rfl, rfl⟩
  · intro h
    obtain ⟨present, rfl, rfl⟩ := h
    exact (run_bind (row_ok.mpr ⟨present, rfl⟩)).trans rfl

theorem readOnly_rowAndContext (id : String) : ReadOnly (rowAndContext id) :=
  (readOnly_row id).bind (fun _ => (readOnly_query _).bind (fun _ => readOnly_pure _))

/-- The checked read succeeds on memos the actor sees. -/
theorem visibleRow_ok :
    visibleRow actor id db = (.ok (found, ctx), db') ↔
      db.row? id = some found ∧ db.permContext id = ctx ∧ found.visibleTo actor ctx = true ∧
        db = db' := by
  constructor
  · intro done
    obtain ⟨⟨row, entries⟩, mid, read, done⟩ := ok_bind.mp done
    obtain ⟨present, rfl, rfl⟩ := rowAndContext_ok.mp read
    obtain ⟨visible, done⟩ := ok_bind_refuse.mp done
    obtain ⟨same, rfl⟩ := ok_pure.mp done
    obtain ⟨rfl, rfl⟩ := Prod.mk.inj same
    exact ⟨present, rfl, by simpa using visible, rfl⟩
  · intro h
    obtain ⟨present, rfl, visible, rfl⟩ := h
    refine (run_bind (rowAndContext_ok.mpr ⟨present, rfl, rfl⟩)).trans ?_
    exact (run_bind (run_refuse (by simp [visible]) _ _)).trans rfl

theorem readOnly_visibleRow (actor : Actor) (id : String) : ReadOnly (visibleRow actor id) :=
  (readOnly_rowAndContext id).bind (fun _ =>
    (readOnly_refuse _ _).bind (fun _ => readOnly_pure _))

theorem get_ok {detail : SharedMemoDetail} :
    get actor id db = (.ok detail, db') ↔
      ∃ row, db.row? id = some row ∧ row.visibleTo actor (db.permContext id) = true ∧
        row.detail actor (db.permContext id) = detail ∧ db = db' := by
  constructor
  · intro done
    obtain ⟨⟨row, entries⟩, mid, read, done⟩ := ok_bind.mp done
    obtain ⟨present, rfl, visible, rfl⟩ := visibleRow_ok.mp read
    obtain ⟨same, rfl⟩ := ok_pure.mp done
    exact ⟨row, present, visible, same, rfl⟩
  · intro h
    obtain ⟨row, present, visible, rfl, rfl⟩ := h
    exact (run_bind (visibleRow_ok.mpr ⟨present, rfl, visible, rfl⟩)).trans rfl

theorem readOnly_get (actor : Actor) (id : String) : ReadOnly (get actor id) :=
  (readOnly_visibleRow actor id).bind (fun _ => readOnly_pure _)

theorem managedRow_ok :
    managedRow actor id error db = (.ok found, db') ↔
      db.row? id = some found ∧ found.canManage actor = true ∧ db = db' := by
  constructor
  · intro done
    obtain ⟨row, mid, read, done⟩ := ok_bind.mp done
    obtain ⟨present, rfl⟩ := row_ok.mp read
    obtain ⟨manage, done⟩ := ok_bind_refuse.mp done
    obtain ⟨rfl, rfl⟩ := ok_pure.mp done
    exact ⟨present, by simpa using manage, rfl⟩
  · intro h
    obtain ⟨present, manage, rfl⟩ := h
    refine (run_bind (row_ok.mpr ⟨present, rfl⟩)).trans ?_
    exact (run_bind (run_refuse (by simp [manage]) _ _)).trans rfl

theorem readOnly_managedRow (actor : Actor) (id error : String) :
    ReadOnly (managedRow actor id error) :=
  (readOnly_row id).bind (fun _ => (readOnly_refuse _ _).bind (fun _ => readOnly_pure _))

theorem historyRow_ok {version : HistoryRow} :
    historyRow id hid db = (.ok version, db') ↔ db.historyRow? id hid = some version ∧ db = db' := by
  simp [historyRow]

theorem readOnly_historyRow (id : String) (hid : Nat) : ReadOnly (historyRow id hid) :=
  (readOnly_query _).bind (fun _ => readOnly_expect _ _)

theorem requireUnused_ok {taken : SharedDb → Bool} {done : Unit} :
    requireUnused taken error db = (.ok done, db') ↔ taken db = false ∧ db = db' := by
  simp [requireUnused]

theorem readOnly_requireUnused (taken : SharedDb → Bool) (error : String) :
    ReadOnly (requireUnused taken error) :=
  (readOnly_query _).bind (fun _ => readOnly_refuse _ _)

theorem checkTotalCapacity_ok {limits : SharedMemoLimits} {added : Nat} {done : Unit} :
    checkTotalCapacity limits added db = (.ok done, db') ↔
      db.totalBodyBytes + added ≤ limits.maxTotalBytes ∧ db = db' := by
  simp [checkTotalCapacity, and_comm]

theorem readOnly_checkTotalCapacity (limits : SharedMemoLimits) (added : Nat) :
    ReadOnly (checkTotalCapacity limits added) :=
  (readOnly_query _).bind (fun _ => readOnly_refuse _ _)

/-! ### Versions -/

section Frames

variable (row : Row)

@[simp] theorem row?_withSnapshot (db : SharedDb) (other : String) :
    (withSnapshot now kind row db).row? other = db.row? other := rfl

@[simp] theorem permContext_withSnapshot (db : SharedDb) (other : String) :
    (withSnapshot now kind row db).permContext other = db.permContext other := rfl

@[simp] theorem row?_withAutoSnapshot (db : SharedDb) (other : String) :
    (withAutoSnapshot now row db).row? other = db.row? other := by
  unfold withAutoSnapshot
  split
  · rfl
  · rfl

@[simp] theorem permContext_withAutoSnapshot (db : SharedDb) (other : String) :
    (withAutoSnapshot now row db).permContext other = db.permContext other := by
  unfold withAutoSnapshot
  split
  · rfl
  · rfl

end Frames

/-- Changing the columns of a memo changes what is read of that memo. -/
theorem row?_setMemo (db : SharedDb) (change : MemoRow → MemoRow) (other : String) :
    (db.setMemo id change).row? other =
      if other = id then (db.row? other).map (fun row =>
        { change row.toMemoRow with id := row.id, commentCount := row.commentCount })
      else db.row? other := by
  unfold SharedDb.setMemo SharedDb.row?
  rw [Table.get?_update]
  by_cases same : other = id
  · rw [if_pos same, if_pos same, Option.map_map, Option.map_map]
    rfl
  · rw [if_neg same, if_neg same]
    rfl

@[simp] theorem permContext_setMemo (db : SharedDb) (change : MemoRow → MemoRow) (other : String) :
    (db.setMemo id change).permContext other = db.permContext other := rfl

theorem snapshotHistory_run (present : db.row? id = some found) :
    snapshotHistory now id kind db = (.ok (), withSnapshot now kind found db) :=
  (run_bind (row_ok.mpr ⟨present, rfl⟩)).trans rfl

theorem maybeAutoSnapshot_run (present : db.row? id = some found) :
    maybeAutoSnapshot now id db = (.ok (), withAutoSnapshot now found db) := by
  have named : found.id = id := (SharedDb.row?_isSome present).2.1
  refine (run_bind (ok_query.mpr ⟨rfl, rfl⟩)).trans ?_
  unfold withAutoSnapshot
  rw [named]
  by_cases due : autoSnapshotDue now id db = true
  · rw [if_pos due, if_pos due]
    exact snapshotHistory_run present
  · rw [if_neg due, if_neg due]
    rfl

/-- The version "close" is stored when the revision is another one. -/
theorem snapshotIfRevisionChanged_run {since : Nat} (present : db.row? id = some found) :
    snapshotIfRevisionChanged now id since db =
      (.ok (), if found.revision ≠ since then withSnapshot now "close" found db else db) := by
  refine (run_bind (row_ok.mpr ⟨present, rfl⟩)).trans ?_
  by_cases changed : found.revision ≠ since
  · rw [if_pos changed, if_pos changed]
    exact snapshotHistory_run present
  · rw [if_neg changed, if_neg changed]
    rfl

/-! ### Writing memos -/

/-- What a memo reads as after new content was stored. -/
def rewritten (now : Nat) (actor : Actor) (title body : String) (row : Row) : Row :=
  { withContent now actor title body row.toMemoRow with
    id := row.id
    commentCount := row.commentCount }

@[simp] theorem visibleTo_rewritten (title body : String) (row : Row) (reader : Actor) :
    (rewritten now actor title body row).visibleTo reader ctx = row.visibleTo reader ctx := rfl

@[simp] theorem canEdit_rewritten (title body : String) (row : Row) (reader : Actor) :
    (rewritten now actor title body row).canEdit reader ctx = row.canEdit reader ctx := rfl

theorem row?_withContent (present : db.row? id = some found) (title body : String) :
    (db.setMemo id (withContent now actor title body)).row? id =
      some (rewritten now actor title body found) := by
  rw [row?_setMemo, if_pos rfl, present]
  rfl

/-- The last two steps of an edit: the new content, and the reply. -/
theorem writeContent_run (now : Nat) (db : SharedDb) (present : db.row? id = some found)
    (visible : found.visibleTo actor (db.permContext id) = true) (title body : String) :
    (execute (·.setMemo id (withContent now actor title body)) >>= fun _ => get actor id) db =
      (.ok ((rewritten now actor title body found).detail actor (db.permContext id)),
        db.setMemo id (withContent now actor title body)) := by
  refine (run_bind (run_execute _ _)).trans (get_ok.mpr ?_)
  exact ⟨_, row?_withContent present title body, visible, rfl, rfl⟩

/-- A successful update: the actor may edit, the revision is the expected one, and only then the
content is replaced, after a version of the old one where that is due. -/
theorem update_ok {base : Nat} {title body : String} {detail : SharedMemoDetail}
    (done : update now actor id base title body db = (.ok detail, db')) :
    ∃ row, db.row? id = some row ∧ row.canEdit actor (db.permContext id) = true ∧
      row.revision = base ∧
      detail = (rewritten now actor title body row).detail actor (db.permContext id) ∧
      db' = (withAutoSnapshot now row db).setMemo id (withContent now actor title body) := by
  obtain ⟨⟨⟩, _, done⟩ := ok_bind_lift.mp done
  obtain ⟨limits, _, done⟩ := ok_bind_query.mp done
  obtain ⟨⟨⟩, _, done⟩ := ok_bind_lift.mp done
  obtain ⟨⟨row, ctx⟩, db₄, read, done⟩ := ok_bind.mp done
  obtain ⟨present, rfl, visible, rfl⟩ := visibleRow_ok.mp read
  obtain ⟨edit, done⟩ := ok_bind_refuse.mp done
  obtain ⟨current, done⟩ := ok_bind_refuse.mp done
  obtain ⟨⟨⟩, db₇, room, done⟩ := ok_bind.mp done
  obtain ⟨_, rfl⟩ := checkTotalCapacity_ok.mp room
  obtain ⟨⟨⟩, db₈, saved, done⟩ := ok_bind.mp done
  rw [maybeAutoSnapshot_run present] at saved
  obtain ⟨_, rfl⟩ := Prod.mk.inj saved
  have written := writeContent_run now (withAutoSnapshot now row db)
    (by rw [row?_withAutoSnapshot]; exact present)
    (by rw [permContext_withAutoSnapshot]; exact visible) title body
  rw [written, permContext_withAutoSnapshot] at done
  obtain ⟨same, rfl⟩ := Prod.mk.inj done
  exact ⟨row, present, by simpa using edit, not_not.mp current, (Except.ok.inj same).symm, rfl⟩

/-- An update that is refused changes nothing. -/
theorem atomic_update (now : Nat) (actor : Actor) (id : String) (base : Nat)
    (title body : String) : Atomic (update now actor id base title body) := by
  intro db
  refine AtomicAt.check (readOnly_lift _) (fun _ _ => ?_)
  refine AtomicAt.check (readOnly_query _) (fun limits _ => ?_)
  refine AtomicAt.check (readOnly_lift _) (fun _ _ => ?_)
  refine AtomicAt.check (readOnly_visibleRow _ _) (fun read passed => ?_)
  obtain ⟨row, ctx⟩ := read
  obtain ⟨present, entries, visible, _⟩ := visibleRow_ok.mp passed
  refine AtomicAt.check (readOnly_refuse _ _) (fun _ _ => ?_)
  refine AtomicAt.check (readOnly_refuse _ _) (fun _ _ => ?_)
  refine AtomicAt.check (readOnly_checkTotalCapacity _ _) (fun _ _ => ?_)
  -- from here on nothing fails
  have saved : maybeAutoSnapshot now id db = _ := maybeAutoSnapshot_run present
  have written := writeContent_run now (withAutoSnapshot now row db)
    (by rw [row?_withAutoSnapshot]; exact present)
    (by rw [permContext_withAutoSnapshot, entries]; exact visible) title body
  exact AtomicAt.of_ok ((run_bind saved).trans written)

/-- A successful restoration: the actor may edit, and the version becomes the content, after a
version of the old one. -/
theorem historyRestore_ok {detail : SharedMemoDetail}
    (done : historyRestore now actor id hid db = (.ok detail, db')) :
    ∃ row version, db.row? id = some row ∧ row.canEdit actor (db.permContext id) = true ∧
      db.historyRow? id hid = some version ∧
      detail = (rewritten now actor version.title version.body row).detail actor
        (db.permContext id) ∧
      db' = (withSnapshot now "restore" row db).setMemo id
        (withContent now actor version.title version.body) := by
  obtain ⟨⟨row, ctx⟩, db₁, read, done⟩ := ok_bind.mp done
  obtain ⟨present, rfl, visible, rfl⟩ := visibleRow_ok.mp read
  obtain ⟨edit, done⟩ := ok_bind_refuse.mp done
  obtain ⟨version, db₃, looked, done⟩ := ok_bind.mp done
  obtain ⟨stored, rfl⟩ := historyRow_ok.mp looked
  obtain ⟨⟨⟩, _, done⟩ := ok_bind_lift.mp done
  obtain ⟨limits, _, done⟩ := ok_bind_query.mp done
  obtain ⟨⟨⟩, _, done⟩ := ok_bind_lift.mp done
  obtain ⟨⟨⟩, db₇, room, done⟩ := ok_bind.mp done
  obtain ⟨_, rfl⟩ := checkTotalCapacity_ok.mp room
  obtain ⟨⟨⟩, db₈, saved, done⟩ := ok_bind.mp done
  rw [snapshotHistory_run present] at saved
  obtain ⟨_, rfl⟩ := Prod.mk.inj saved
  rw [writeContent_run now (withSnapshot now "restore" row db) present visible] at done
  obtain ⟨same, rfl⟩ := Prod.mk.inj done
  exact ⟨row, version, present, by simpa using edit, stored, (Except.ok.inj same).symm, rfl⟩

theorem atomic_historyRestore (now : Nat) (actor : Actor) (id : String) (hid : Nat) :
    Atomic (historyRestore now actor id hid) := by
  intro db
  refine AtomicAt.check (readOnly_visibleRow _ _) (fun read passed => ?_)
  obtain ⟨row, ctx⟩ := read
  obtain ⟨present, entries, visible, _⟩ := visibleRow_ok.mp passed
  refine AtomicAt.check (readOnly_refuse _ _) (fun _ _ => ?_)
  refine AtomicAt.check (readOnly_historyRow _ _) (fun version _ => ?_)
  refine AtomicAt.check (readOnly_lift _) (fun _ _ => ?_)
  refine AtomicAt.check (readOnly_query _) (fun limits _ => ?_)
  refine AtomicAt.check (readOnly_lift _) (fun _ _ => ?_)
  refine AtomicAt.check (readOnly_checkTotalCapacity _ _) (fun _ _ => ?_)
  have saved : snapshotHistory now id "restore" db = _ := snapshotHistory_run present
  have written := writeContent_run now (withSnapshot now "restore" row db) present
    (by rw [permContext_withSnapshot, entries]; exact visible) version.title version.body
  exact AtomicAt.of_ok ((run_bind saved).trans written)

/-- A version on request needs the permission to edit. -/
theorem saveVersion_ok {done : Unit} (saved : saveVersion now actor id db = (.ok done, db')) :
    ∃ row, db.row? id = some row ∧ row.canEdit actor (db.permContext id) = true ∧
      (db' = db ∨ db' = withSnapshot now "manual" row db) := by
  obtain ⟨⟨row, ctx⟩, db₁, read, saved⟩ := ok_bind.mp saved
  obtain ⟨present, rfl, rfl⟩ := rowAndContext_ok.mp read
  obtain ⟨edit, saved⟩ := ok_bind_refuse.mp saved
  obtain ⟨latest, rfl, saved⟩ := ok_bind_query.mp saved
  refine ⟨row, present, by simpa using edit, ?_⟩
  by_cases same : (db.latestHistory id).map HistoryRow.revision = some row.revision
  · rw [if_pos same] at saved
    obtain ⟨_, rfl⟩ := ok_pure.mp saved
    exact .inl rfl
  · rw [if_neg same, snapshotHistory_run present] at saved
    obtain ⟨_, rfl⟩ := Prod.mk.inj saved
    exact .inr rfl

theorem atomic_saveVersion (now : Nat) (actor : Actor) (id : String) :
    Atomic (saveVersion now actor id) := by
  intro db
  refine AtomicAt.check (readOnly_rowAndContext _) (fun read passed => ?_)
  obtain ⟨row, ctx⟩ := read
  obtain ⟨present, _, _⟩ := rowAndContext_ok.mp passed
  refine AtomicAt.check (readOnly_refuse _ _) (fun _ _ => ?_)
  refine AtomicAt.check (readOnly_query _) (fun latest _ => ?_)
  by_cases same : latest.map HistoryRow.revision = some row.revision
  · rw [if_pos same]
    exact (readOnly_pure _).atomic db
  · rw [if_neg same]
    exact AtomicAt.of_ok (snapshotHistory_run present)

theorem row?_insertMemo (db : SharedDb) (id : String) (memo : MemoRow) :
    (db.insertMemo id memo).row? id = some ((db.insertMemo id memo).toRow id memo) :=
  SharedDb.row?_eq_some.mpr ⟨memo, Table.get?_insert_self _ _ _, rfl⟩

/-- A successful creation: the id was free and the memo is there, owned by the actor. -/
theorem create_ok {title body : String} {folderId : Option String} {detail : SharedMemoDetail}
    (done : create now newId actor title body folderId db = (.ok detail, db')) :
    db.memos.get? newId = none ∧
      db' = db.insertMemo newId (newMemo now actor title body folderId) ∧
      get actor newId db' = (.ok detail, db') := by
  obtain ⟨⟨⟩, _, done⟩ := ok_bind_lift.mp done
  obtain ⟨limits, _, done⟩ := ok_bind_query.mp done
  obtain ⟨⟨⟩, _, done⟩ := ok_bind_lift.mp done
  obtain ⟨count, _, done⟩ := ok_bind_query.mp done
  obtain ⟨_, done⟩ := ok_bind_refuse.mp done
  obtain ⟨⟨⟩, db₆, room, done⟩ := ok_bind.mp done
  obtain ⟨_, rfl⟩ := checkTotalCapacity_ok.mp room
  obtain ⟨known, _, done⟩ := ok_bind_query.mp done
  obtain ⟨_, done⟩ := ok_bind_refuse.mp done
  obtain ⟨⟨⟩, db₉, unused, done⟩ := ok_bind.mp done
  obtain ⟨free, rfl⟩ := requireUnused_ok.mp unused
  obtain ⟨⟨⟩, db₁₀, stored, done⟩ := ok_bind.mp done
  obtain rfl := ok_execute.mp stored
  obtain ⟨_, _, _, _, rfl⟩ := get_ok.mp done
  exact ⟨by simpa using free, rfl, done⟩

theorem atomic_create (now : Nat) (newId : String) (actor : Actor) (title body : String)
    (folderId : Option String) : Atomic (create now newId actor title body folderId) := by
  intro db
  refine AtomicAt.check (readOnly_lift _) (fun _ _ => ?_)
  refine AtomicAt.check (readOnly_query _) (fun limits _ => ?_)
  refine AtomicAt.check (readOnly_lift _) (fun _ _ => ?_)
  refine AtomicAt.check (readOnly_query _) (fun count _ => ?_)
  refine AtomicAt.check (readOnly_refuse _ _) (fun _ _ => ?_)
  refine AtomicAt.check (readOnly_checkTotalCapacity _ _) (fun _ _ => ?_)
  refine AtomicAt.check (readOnly_query _) (fun known _ => ?_)
  refine AtomicAt.check (readOnly_refuse _ _) (fun _ _ => ?_)
  refine AtomicAt.check (readOnly_requireUnused _ _) (fun _ _ => ?_)
  -- the owner sees the new memo
  have present := row?_insertMemo db newId (newMemo now actor title body folderId)
  have visible : ((db.insertMemo newId (newMemo now actor title body folderId)).toRow newId
      (newMemo now actor title body folderId)).visibleTo actor
        ((db.insertMemo newId (newMemo now actor title body folderId)).permContext newId) = true :=
    Row.visibleTo_of_canManage (Row.canManage_iff.mpr (.inr rfl))
  exact AtomicAt.of_ok ((run_bind (run_execute _ _)).trans
    (get_ok.mpr ⟨_, present, visible, rfl, rfl⟩))

/-! ### Trash, deletion and permissions -/

theorem trash_ok {done : Unit} (trashed : trash now actor id db = (.ok done, db')) :
    ∃ row, db.row? id = some row ∧ row.canManage actor = true ∧
      db' = db.setMemo id (fun memo =>
        if memo.deletedAt.isNone then { memo with deletedAt := some now } else memo) := by
  obtain ⟨row, db₁, read, stored⟩ := ok_bind.mp trashed
  obtain ⟨present, manage, rfl⟩ := managedRow_ok.mp read
  exact ⟨row, present, manage, (ok_execute.mp stored).symm⟩

theorem restore_ok {done : Unit} (restored : restore actor id db = (.ok done, db')) :
    ∃ row, db.row? id = some row ∧ row.canManage actor = true ∧
      db' = db.setMemo id (fun memo => { memo with deletedAt := none }) := by
  obtain ⟨row, db₁, read, stored⟩ := ok_bind.mp restored
  obtain ⟨present, manage, rfl⟩ := managedRow_ok.mp read
  exact ⟨row, present, manage, (ok_execute.mp stored).symm⟩

theorem deleteForever_ok {done : Unit}
    (deleted : deleteForever now actor id db = (.ok done, db')) :
    ∃ row, db.row? id = some row ∧ row.canManage actor = true ∧ row.deletedAt.isSome = true ∧
      db' = db.purgeMemo id now := by
  obtain ⟨row, db₁, read, deleted⟩ := ok_bind.mp deleted
  obtain ⟨present, manage, rfl⟩ := managedRow_ok.mp read
  obtain ⟨trashed, stored⟩ := ok_bind_refuse.mp deleted
  exact ⟨row, present, manage, Option.isSome_iff_ne_none.mpr trashed, (ok_execute.mp stored).symm⟩

theorem atomic_trash (now : Nat) (actor : Actor) (id : String) : Atomic (trash now actor id) :=
  Atomic.after_readOnly (readOnly_managedRow _ _ _) (fun _ => atomic_execute _)

theorem atomic_restore (actor : Actor) (id : String) : Atomic (restore actor id) :=
  Atomic.after_readOnly (readOnly_managedRow _ _ _) (fun _ => atomic_execute _)

theorem atomic_deleteForever (now : Nat) (actor : Actor) (id : String) :
    Atomic (deleteForever now actor id) :=
  Atomic.after_readOnly (readOnly_managedRow _ _ _) (fun _ =>
    Atomic.after_readOnly (readOnly_refuse _ _) (fun _ => atomic_execute _))

section SetPerms

variable {everyone : SharedPermLevel} {members : List SharedMemberPerm}
  {groups : Option (List SharedGroupPerm)}

/-- The three writes of `set_perms` as one. -/
theorem replacePerms_run (db : SharedDb) :
    replacePerms id everyone members groups db =
      (.ok (), withPerms id everyone members groups db) := by
  unfold replacePerms
  rw [ok_transaction]
  refine (run_bind (run_execute _ _)).trans ((run_bind (run_execute _ _)).trans ?_)
  cases groups with
  | none => rfl
  | some groups => rfl

/-- Replacing permissions leaves the columns of a memo alone but for the one for everyone. -/
theorem row?_withPerms (present : db.row? id = some found) :
    (withPerms id everyone members groups db).row? id =
      some { found with everyone := everyone } := by
  have columns : (withPerms id everyone members groups db).row? id =
      (db.setMemo id (fun memo => { memo with everyone := everyone })).row? id := by
    cases groups with
    | none => rfl
    | some groups => rfl
  rw [columns, row?_setMemo, if_pos rfl, present]
  rfl

theorem setPerms_ok {detail : SharedMemoDetail}
    (done : setPerms actor id everyone members groups db = (.ok detail, db')) :
    ∃ row, db.row? id = some row ∧ row.canManage actor = true ∧
      db' = withPerms id everyone members groups db ∧ get actor id db' = (.ok detail, db') := by
  obtain ⟨row, db₁, read, done⟩ := ok_bind.mp done
  obtain ⟨present, manage, rfl⟩ := managedRow_ok.mp read
  rw [run_bind (replacePerms_run _)] at done
  obtain ⟨_, _, _, _, rfl⟩ := get_ok.mp done
  exact ⟨row, present, manage, rfl, done⟩

/-- Whoever may change the permissions still sees the memo afterwards. -/
theorem atomic_setPerms (actor : Actor) (id : String) (everyone : SharedPermLevel)
    (members : List SharedMemberPerm) (groups : Option (List SharedGroupPerm)) :
    Atomic (setPerms actor id everyone members groups) := by
  intro db
  refine AtomicAt.check (readOnly_managedRow _ _ _) (fun row passed => ?_)
  obtain ⟨present, manage, _⟩ := managedRow_ok.mp passed
  have present' : (withPerms id everyone members groups db).row? id = _ :=
    row?_withPerms present
  have manage' : ({ row with everyone := everyone } : Row).canManage actor = true := manage
  have visible : ({ row with everyone := everyone } : Row).visibleTo actor
      ((withPerms id everyone members groups db).permContext id) = true :=
    Row.visibleTo_of_canManage manage'
  exact AtomicAt.of_ok ((run_bind (replacePerms_run db)).trans
    (get_ok.mpr ⟨_, present', visible, rfl, rfl⟩))

end SetPerms

theorem setLimits_ok {limits : SharedMemoLimits} {done : Unit}
    (changed : setLimits actor limits db = (.ok done, db')) :
    actor.isAdmin = true ∧ limits.validate = .ok () ∧ db' = { db with limits := limits } := by
  obtain ⟨admin, changed⟩ := ok_bind_refuse.mp changed
  obtain ⟨⟨⟩, valid, stored⟩ := ok_bind_lift.mp changed
  exact ⟨by simpa using admin, valid, (ok_execute.mp stored).symm⟩

theorem atomic_setLimits (actor : Actor) (limits : SharedMemoLimits) :
    Atomic (setLimits actor limits) :=
  Atomic.after_readOnly (readOnly_refuse _ _) (fun _ =>
    Atomic.after_readOnly (readOnly_lift _) (fun _ => atomic_execute _))

/-! ### Comments -/

theorem commentAdd_ok {body : String} {comment : SharedMemoComment}
    (done : commentAdd now newId actor id body db = (.ok comment, db')) :
    ∃ row, db.row? id = some row ∧ row.visibleTo actor (db.permContext id) = true ∧
      db.memoComments.get? newId = none ∧
      db' = { db with memoComments :=
        db.memoComments.insert newId (newComment now actor id (Text.trim body)) } := by
  obtain ⟨⟨row, ctx⟩, db₁, read, done⟩ := ok_bind.mp done
  obtain ⟨present, rfl, visible, rfl⟩ := visibleRow_ok.mp read
  obtain ⟨text, db₂, trimmed, done⟩ := ok_bind.mp done
  obtain ⟨rfl, rfl⟩ := ok_pure.mp trimmed
  obtain ⟨_, done⟩ := ok_bind_refuse.mp done
  obtain ⟨_, done⟩ := ok_bind_refuse.mp done
  obtain ⟨count, _, done⟩ := ok_bind_query.mp done
  obtain ⟨_, done⟩ := ok_bind_refuse.mp done
  obtain ⟨⟨⟩, db₇, unused, done⟩ := ok_bind.mp done
  obtain ⟨free, rfl⟩ := requireUnused_ok.mp unused
  obtain ⟨⟨⟩, db₈, stored, done⟩ := ok_bind.mp done
  obtain rfl := ok_execute.mp stored
  obtain ⟨_, rfl⟩ := ok_pure.mp done
  exact ⟨row, present, visible, by simpa using free, rfl⟩

theorem atomic_commentAdd (now : Nat) (newId : String) (actor : Actor) (id body : String) :
    Atomic (commentAdd now newId actor id body) := by
  intro db
  refine AtomicAt.check (readOnly_visibleRow _ _) (fun _ _ => ?_)
  refine AtomicAt.check (readOnly_pure _) (fun _ _ => ?_)
  refine AtomicAt.check (readOnly_refuse _ _) (fun _ _ => ?_)
  refine AtomicAt.check (readOnly_refuse _ _) (fun _ _ => ?_)
  refine AtomicAt.check (readOnly_query _) (fun _ _ => ?_)
  refine AtomicAt.check (readOnly_refuse _ _) (fun _ _ => ?_)
  refine AtomicAt.check (readOnly_requireUnused _ _) (fun _ _ => ?_)
  exact AtomicAt.of_ok ((run_bind (run_execute _ _)).trans rfl)

/-- A comment is deleted by its author or by a manager of the memo, who sees it. -/
theorem commentDelete_ok {commentId : String} {done : Unit}
    (deleted : commentDelete actor id commentId db = (.ok done, db')) :
    ∃ row comment, db.row? id = some row ∧ row.visibleTo actor (db.permContext id) = true ∧
      db.memoComments.get? commentId = some comment ∧ comment.memoId = id ∧
      (comment.authorId = actor.ownerId ∨ row.canManage actor = true) ∧
      db' = { db with memoComments := db.memoComments.erase commentId } := by
  obtain ⟨⟨row, ctx⟩, db₁, read, deleted⟩ := ok_bind.mp deleted
  obtain ⟨present, rfl, visible, rfl⟩ := visibleRow_ok.mp read
  obtain ⟨found, rfl, deleted⟩ := ok_bind_query.mp deleted
  obtain ⟨comment, db₃, expected, deleted⟩ := ok_bind.mp deleted
  obtain ⟨stored, rfl⟩ := ok_expect.mp expected
  obtain ⟨allowed, deleted⟩ := ok_bind_refuse.mp deleted
  obtain ⟨stored, ofMemo⟩ := Option.filter_eq_some_iff.mp stored
  refine ⟨row, comment, present, visible, stored, by simpa using ofMemo, ?_,
    (ok_execute.mp deleted).symm⟩
  by_cases author : comment.authorId = actor.ownerId
  · exact .inl author
  · exact .inr (by simpa [author] using allowed)

theorem atomic_commentDelete (actor : Actor) (id commentId : String) :
    Atomic (commentDelete actor id commentId) :=
  Atomic.after_readOnly (readOnly_visibleRow _ _) (fun _ =>
    Atomic.after_readOnly (readOnly_query _) (fun _ =>
      Atomic.after_readOnly (readOnly_expect _ _) (fun _ =>
        Atomic.after_readOnly (readOnly_refuse _ _) (fun _ => atomic_execute _))))

/-! ### Folders -/

theorem requireAdmin_ok {done : Unit} :
    requireAdmin actor db = (.ok done, db') ↔ actor.isAdmin = true ∧ db = db' := by
  simp [requireAdmin]

theorem folderCreate_ok {name : String} {folder : MemoFolder}
    (done : folderCreate now newId actor name db = (.ok folder, db')) :
    actor.isAdmin = true ∧ db.folders.get? newId = none ∧
      db.folders.rows.any (fun entry => entry.2.name = folder.name) = false ∧
      db' = { db with folders :=
        db.folders.insert newId { name := folder.name, createdAt := now } } := by
  obtain ⟨⟨⟩, db₁, checked, done⟩ := ok_bind.mp done
  obtain ⟨admin, rfl⟩ := requireAdmin_ok.mp checked
  obtain ⟨name, _, done⟩ := ok_bind_lift.mp done
  obtain ⟨⟨⟩, db₃, compared, done⟩ := ok_bind.mp done
  obtain ⟨distinct, rfl⟩ := requireUnused_ok.mp compared
  obtain ⟨⟨⟩, db₄, unused, done⟩ := ok_bind.mp done
  obtain ⟨free, rfl⟩ := requireUnused_ok.mp unused
  obtain ⟨⟨⟩, db₅, stored, done⟩ := ok_bind.mp done
  obtain rfl := ok_execute.mp stored
  obtain ⟨rfl, rfl⟩ := ok_pure.mp done
  exact ⟨admin, by simpa using free, distinct, rfl⟩

theorem folderRename_ok {name : String} {done : Unit}
    (renamed : folderRename actor id name db = (.ok done, db')) :
    actor.isAdmin = true ∧ ∃ valid, validateFolderName name = .ok valid ∧
      db' = { db with folders :=
        db.folders.update id (fun folder => { folder with name := valid }) } := by
  obtain ⟨⟨⟩, db₁, checked, renamed⟩ := ok_bind.mp renamed
  obtain ⟨admin, rfl⟩ := requireAdmin_ok.mp checked
  obtain ⟨name, valid, renamed⟩ := ok_bind_lift.mp renamed
  obtain ⟨found, rfl, renamed⟩ := ok_bind_query.mp renamed
  obtain ⟨_, renamed⟩ := ok_bind_refuse.mp renamed
  exact ⟨admin, name, valid, (ok_execute.mp renamed).symm⟩

theorem folderDelete_ok {done : Unit} (deleted : folderDelete actor id db = (.ok done, db')) :
    actor.isAdmin = true ∧
      db' = { db with
        memos := db.memos.mapRows (fun _ memo =>
          if memo.folderId = some id then { memo with folderId := none } else memo)
        folders := db.folders.erase id } := by
  obtain ⟨⟨⟩, db₁, checked, deleted⟩ := ok_bind.mp deleted
  obtain ⟨admin, rfl⟩ := requireAdmin_ok.mp checked
  have deleted := ok_transaction.mp deleted
  obtain ⟨⟨⟩, db₂, cleared, deleted⟩ := ok_bind.mp deleted
  obtain rfl := ok_execute.mp cleared
  obtain ⟨found, _, deleted⟩ := ok_bind_query.mp deleted
  obtain ⟨_, deleted⟩ := ok_bind_refuse.mp deleted
  exact ⟨admin, (ok_execute.mp deleted).symm⟩

theorem atomic_folderCreate (now : Nat) (newId : String) (actor : Actor) (name : String) :
    Atomic (folderCreate now newId actor name) := by
  intro db
  refine AtomicAt.check (readOnly_refuse _ _) (fun _ _ => ?_)
  refine AtomicAt.check (readOnly_lift _) (fun _ _ => ?_)
  refine AtomicAt.check (readOnly_requireUnused _ _) (fun _ _ => ?_)
  refine AtomicAt.check (readOnly_requireUnused _ _) (fun _ _ => ?_)
  exact AtomicAt.of_ok ((run_bind (run_execute _ _)).trans rfl)

theorem atomic_folderRename (actor : Actor) (id name : String) :
    Atomic (folderRename actor id name) :=
  Atomic.after_readOnly (readOnly_refuse _ _) (fun _ =>
    Atomic.after_readOnly (readOnly_lift _) (fun _ =>
      Atomic.after_readOnly (readOnly_query _) (fun _ =>
        Atomic.after_readOnly (readOnly_refuse _ _) (fun _ => atomic_execute _))))

/-- The transaction keeps the memos in their folder when there is no such folder. -/
theorem atomic_folderDelete (actor : Actor) (id : String) : Atomic (folderDelete actor id) :=
  Atomic.after_readOnly (readOnly_refuse _ _) (fun _ => atomic_transaction _)

end PeerCove.SharedStore
