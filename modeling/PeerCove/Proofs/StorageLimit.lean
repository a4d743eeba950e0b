/-
Module: PeerCove.Proofs.StorageLimit
Layer: Proofs
Purpose: When the bodies and the stored versions stay within the limit of the store: exactly when each
  version that is stored unmeasured fits.
Trusted boundary: none
Main exports: StoreRun.Fits, StoreRun.Within, StoreRun.storage_limited,
  StoreRun.storage_unlimited
-/
import PeerCove.Proofs.HistoryRetention

namespace PeerCove

open SharedStore SharedDb Retention

/-! ### Bytes -/

def versionBytes (versions : List (Nat × HistoryRow)) : Nat :=
  (versions.map (fun version => Text.len version.2.body)).sum

def SharedDb.memoBytes (db : SharedDb) : Nat :=
  (db.memos.rows.map (fun entry => Text.len entry.2.body)).sum

variable {clock now : Nat} {db db' : SharedDb} {row : Row}

theorem versionBytes_append (one two : List (Nat × HistoryRow)) :
    versionBytes (one ++ two) = versionBytes one + versionBytes two := by
  rw [versionBytes, List.map_append, List.sum_append]
  rfl

theorem versionBytes_perm {one two : List (Nat × HistoryRow)} (same : one.Perm two) :
    versionBytes one = versionBytes two :=
  (same.map _).sum_nat

theorem totalBodyBytes_eq (db : SharedDb) :
    db.totalBodyBytes = db.memoBytes + versionBytes db.memoHistory.rows :=
  rfl

/-- The bytes of the versions of a memo, and of all others. -/
theorem versionBytes_split (db : SharedDb) (id : String) :
    versionBytes db.memoHistory.rows = versionBytes (versionsOf id db) +
      versionBytes (db.memoHistory.rows.filter (fun version => version.2.memoId ≠ id)) := by
  rw [← versionBytes_append]
  refine versionBytes_perm (List.Perm.symm ?_)
  have split := List.filter_append_perm
    (fun version : Nat × HistoryRow => decide (version.2.memoId = id)) db.memoHistory.rows
  simpa [versionsOf] using split

/-- The versions of a memo that stay when one more of it is stored. -/
def survivors (now : Nat) (id : String) (db : SharedDb) : List (Nat × HistoryRow) :=
  ((db.historyOf id).take (db.limits.maxVersions - 1)).filter (fresh now db.limits)

/-- A snapshot leaves the versions of other memos. -/
theorem others_withSnapshot (ordered : db.Ordered clock) (now : Nat)
    (kind : String) (row : Row) :
    (withSnapshot now kind row db).memoHistory.rows.filter
        (fun version => version.2.memoId ≠ row.id) =
      db.memoHistory.rows.filter (fun version => version.2.memoId ≠ row.id) := by
  change List.filter _ (List.filter _ (db.insertHistory (versionOf now kind row)).memoHistory.rows) = _
  rw [ordered.rows_insertHistory, List.filter_filter, List.filter_append]
  have new : [(db.lastHid + 1, versionOf now kind row)].filter (fun version =>
      decide (version.2.memoId ≠ row.id) && decide (version.2.memoId ≠ row.id ∨
        (version.1 ∈ (((db.insertHistory (versionOf now kind row)).historyOf row.id).take
          db.limits.maxVersions).map Prod.fst ∧
            ¬ version.2.createdAt + db.limits.historyDays * DAY_MS < now))) = [] := by
    simp [versionOf]
  rw [new, List.append_nil]
  refine List.filter_congr (fun version _ => ?_)
  by_cases mine : version.2.memoId = row.id
  · simp [mine]
  · simp [mine]

/-- What a version adds, and what it replaces. -/
theorem totalBodyBytes_withSnapshot (ordered : db.Ordered clock) (time : clock ≤ now)
    (positive : 1 ≤ db.limits.maxVersions) (kind : String) (row : Row) :
    (withSnapshot now kind row db).totalBodyBytes + versionBytes (db.historyOf row.id) =
      db.totalBodyBytes + Text.len row.body + versionBytes (survivors now row.id db) := by
  obtain ⟨count, counted⟩ := Nat.exists_eq_succ_of_ne_zero (Nat.one_le_iff_ne_zero.mp positive)
  have isFresh : fresh now db.limits (db.lastHid + 1, versionOf now kind row) = true :=
    decide_eq_true (Nat.not_lt.mpr (Nat.le_add_right now _))
  have versions := ordered.versionsOf_withSnapshot time kind row
  rw [counted, retained_concat isFresh] at versions
  have listed : versionBytes (db.historyOf row.id) = versionBytes (versionsOf row.id db) := by
    rw [ordered.historyOf]
    exact versionBytes_perm (List.reverse_perm _)
  have stay : versionBytes (survivors now row.id db) =
      versionBytes (retained count (fresh now db.limits) (versionsOf row.id db)) := by
    rw [survivors, counted, Nat.succ_sub_one, ordered.historyOf, retained,
      List.rtake_eq_reverse_take_reverse, List.filter_reverse]
    exact versionBytes_perm (List.reverse_perm _).symm
  have others : (withSnapshot now kind row db).memoHistory.rows.filter
      (fun version => version.2.memoId ≠ row.id) =
        db.memoHistory.rows.filter (fun version => version.2.memoId ≠ row.id) :=
    others_withSnapshot ordered now kind row
  have before := versionBytes_split db row.id
  have after := versionBytes_split (withSnapshot now kind row db) row.id
  have single : versionBytes [(db.lastHid + 1, versionOf now kind row)] = Text.len row.body :=
    Nat.add_zero _
  rw [others, versions, versionBytes_append, single] at after
  rw [totalBodyBytes_eq, totalBodyBytes_eq, after, before, listed, stay]
  change db.memoBytes + _ + _ = _
  omega

/-- New content takes the place of the old one. -/
theorem memoBytes_setMemo {id : String} (present : db.row? id = some row)
    (change : MemoRow → MemoRow) :
    (db.setMemo id change).memoBytes + Text.len row.body =
      db.memoBytes + Text.len (change row.toMemoRow).body :=
  Table.sum_update (row?_isSome present).1 change (fun memo => Text.len memo.body)

theorem memoBytes_mark (db : SharedDb) (id : String) {change : MemoRow → MemoRow}
    (same : ∀ memo, (change memo).body = memo.body) :
    (db.setMemo id change).memoBytes = db.memoBytes := by
  change (List.map _ (List.map _ _)).sum = _
  rw [List.map_map]
  congr 1
  refine List.map_congr_left (fun entry _ => ?_)
  change Text.len (if entry.1 = id then change entry.2 else entry.2).body = _
  split
  · rw [same]
  · rfl

theorem memoBytes_insertMemo {id : String} (unused : db.memos.get? id = none) (memo : MemoRow) :
    (db.insertMemo id memo).memoBytes = db.memoBytes + Text.len memo.body := by
  change ((db.memos.insert id memo).rows.map _).sum = _
  rw [Table.rows_insert unused, List.map_append, List.sum_append]
  rfl

theorem totalBodyBytes_purge (db : SharedDb) (id : String) (now : Nat) :
    (db.purgeMemo id now).totalBodyBytes ≤ db.totalBodyBytes := by
  have memos : (db.purgeMemo id now).memoBytes ≤ db.memoBytes := by
    cases found : db.memos.get? id with
    | none =>
        change ((db.memos.erase id).rows.map _).sum ≤ _
        rw [Table.erase_absent found]
        exact le_rfl
    | some memo =>
        have rows := ((Table.rows_perm found).map (fun entry => Text.len entry.2.body)).sum_nat
        change ((db.memos.erase id).rows.map _).sum ≤ _
        rw [SharedDb.memoBytes, ← rows, List.map_cons, List.sum_cons]
        exact Nat.le_add_left _ _
  have versions := versionBytes_split db id
  have left : versionBytes (db.purgeMemo id now).memoHistory.rows =
      versionBytes (db.memoHistory.rows.filter (fun version => version.2.memoId ≠ id)) := rfl
  rw [totalBodyBytes_eq, totalBodyBytes_eq, left, versions]
  omega

/-- An edit that has room is within the limit, with the version it stores of the old content. -/
theorem within_edit (db : SharedDb) {saved : SharedDb} {id body : String}
    (present : db.row? id = some row) (room : db.HasRoom (Text.len body))
    (change : MemoRow → MemoRow) (content : ∀ memo, (change memo).body = body)
    (memos : saved.memos = db.memos)
    (added : saved.totalBodyBytes ≤ db.totalBodyBytes + Text.len row.body) :
    (saved.setMemo id change).totalBodyBytes ≤ db.limits.maxTotalBytes := by
  have written := memoBytes_setMemo present change
  have same : (saved.setMemo id change).memoBytes = (db.setMemo id change).memoBytes := by
    rw [SharedDb.memoBytes, SharedDb.memoBytes]
    change ((saved.memos.update id change).rows.map _).sum = _
    rw [memos]
    rfl
  have before : saved.memoBytes = db.memoBytes := by rw [SharedDb.memoBytes, memos]; rfl
  have total : (saved.setMemo id change).totalBodyBytes =
      (saved.setMemo id change).memoBytes + versionBytes saved.memoHistory.rows := rfl
  rw [content] at written
  rw [totalBodyBytes_eq saved, before] at added
  have fits : db.totalBodyBytes + Text.len body ≤ db.limits.maxTotalBytes := room
  rw [total, same]
  omega

namespace StoreRun

/-- Bodies and versions are within the limit. -/
def Within (run : StoreRun) : Prop :=
  run.db.totalBodyBytes ≤ run.db.limits.maxTotalBytes

/-- A version that nobody measures fits beside the versions that stay. -/
def Fits (event : StoreEvent) (run : StoreRun) : Prop :=
  ∀ row, uncheckedVersion event.action run.db = some row →
    run.db.totalBodyBytes + Text.len row.body + versionBytes (survivors event.now row.id run.db) ≤
      run.db.limits.maxTotalBytes + versionBytes (run.db.historyOf row.id)

theorem snapshot_bytes_le (ordered : db.Ordered clock) (time : clock ≤ now)
    (positive : 1 ≤ db.limits.maxVersions) (kind : String) (row : Row) :
    (withSnapshot now kind row db).totalBodyBytes ≤ db.totalBodyBytes + Text.len row.body := by
  have bytes := totalBodyBytes_withSnapshot ordered time positive kind row
  have fewer : versionBytes (survivors now row.id db) ≤ versionBytes (db.historyOf row.id) := by
    have sub : (survivors now row.id db).Sublist (db.historyOf row.id) :=
      List.filter_sublist.trans (List.take_sublist _ _)
    obtain ⟨others, split⟩ := sub.exists_perm_append
    rw [versionBytes_perm split, versionBytes_append]
    exact Nat.le_add_right _ _
  omega

/-- From a state within the limit, the next one is exactly when the version fits. -/
theorem within_step {event : StoreEvent} {run next : StoreRun}
    (ordered : run.db.Ordered run.clock) (positive : 1 ≤ run.db.limits.maxVersions)
    (within : run.Within) (happens : step event run = some next) :
    next.Within ↔ Fits event run := by
  obtain ⟨time, _, after, _⟩ := step_some happens
  have change := perform_actionChange event.now event.action run.db
  rw [← after] at change
  have limits := (advance_perform ordered time positive change).2.1
  rw [Within, limits]
  have unmeasured : uncheckedVersion event.action run.db = none →
      next.db.totalBodyBytes ≤ run.db.limits.maxTotalBytes →
        (next.db.totalBodyBytes ≤ run.db.limits.maxTotalBytes ↔ Fits event run) := by
    intro measured below
    refine iff_of_true below (fun row found => ?_)
    cases measured.symm.trans found
  generalize isAfter : next.db = reached at change unmeasured ⊢
  cases change with
  | same measured => exact unmeasured measured within
  | create newId memo measured unused room =>
      refine unmeasured measured ?_
      have added : (run.db.insertMemo newId memo).totalBodyBytes =
          (run.db.insertMemo newId memo).memoBytes + versionBytes run.db.memoHistory.rows := rfl
      have fits : run.db.totalBodyBytes + Text.len memo.body ≤ run.db.limits.maxTotalBytes := room
      rw [totalBodyBytes_eq] at fits
      rw [added, memoBytes_insertMemo unused memo]
      omega
  | update actor id title body row measured present room =>
      refine unmeasured measured (within_edit run.db present room _ (fun _ => rfl) ?_ ?_)
      · unfold withAutoSnapshot
        split
        · rfl
        · rfl
      · unfold withAutoSnapshot
        split
        · exact snapshot_bytes_le ordered time positive "auto" row
        · exact Nat.le_add_right _ _
  | historyRestore actor id title body row measured present room =>
      exact unmeasured measured (within_edit run.db present room _ (fun _ => rfl) rfl
        (snapshot_bytes_le ordered time positive "restore" row))
  | version kind id row present unchecked =>
      have bytes := totalBodyBytes_withSnapshot ordered time positive kind row
      constructor
      · intro below other found
        cases unchecked.symm.trans found
        omega
      · intro fits
        have enough := fits row unchecked
        omega
  | mark id change measured same =>
      refine unmeasured measured ?_
      have total : (run.db.setMemo id change).totalBodyBytes =
          (run.db.setMemo id change).memoBytes + versionBytes run.db.memoHistory.rows := rfl
      rw [total, memoBytes_mark run.db id same]
      exact within
  | purge id measured =>
      exact unmeasured measured ((totalBodyBytes_purge run.db id event.now).trans within)

/-- A run from a state within the limit stays within it exactly when every version that is stored
unmeasured fits. -/
theorem storage_limited {start final : StoreRun} {events : List StoreEvent}
    (ordered : start.db.Ordered start.clock) (positive : 1 ≤ start.db.limits.maxVersions)
    (within : start.Within) (reached : Runs.run step events start = some final) :
    (∀ done, done <+: events → ∀ run, Runs.run step done start = some run → run.Within) ↔
      Runs.Along step Fits events start := by
  refine Runs.safe_iff_along
    (fun run => run.db.Ordered run.clock ∧ 1 ≤ run.db.limits.maxVersions) Within
    (fun event run next inv happens => ?_)
    (fun event run next inv within happens => within_step inv.1 inv.2 within happens)
    ⟨ordered, positive⟩ within reached
  obtain ⟨time, clock, after, _⟩ := step_some happens
  have change := perform_actionChange event.now event.action run.db
  rw [← after] at change
  obtain ⟨later, limits, _⟩ := advance_perform inv.1 time inv.2 change
  exact ⟨clock ▸ later, limits ▸ inv.2⟩

instance (event : StoreEvent) (run : StoreRun) : Decidable (Fits event run) :=
  decidable_of_iff (∀ row ∈ uncheckedVersion event.action run.db,
    run.db.totalBodyBytes + Text.len row.body + versionBytes (survivors event.now row.id run.db) ≤
      run.db.limits.maxTotalBytes + versionBytes (run.db.historyOf row.id)) Iff.rfl

instance (run : StoreRun) : Decidable run.Within :=
  inferInstanceAs (Decidable (_ ≤ _))

theorem storage_limited_savedTwice :
    ∃ final, Runs.run step savedTwice twoVersions = some final ∧
      ∀ done, done <+: savedTwice → ∀ run, Runs.run step done twoVersions = some run →
        run.Within := by
  have ends : (Runs.run step savedTwice twoVersions).isSome = true := by decide
  obtain ⟨final, reached⟩ := Option.isSome_iff_exists.mp ends
  have ordered : twoVersions.db.Ordered twoVersions.clock := ordered_of_empty rfl
  have fits : Runs.Along step Fits savedTwice twoVersions := by decide
  exact ⟨final, reached, (storage_limited ordered (by decide) (by decide) reached).mpr fits⟩

/-! ### Over the limit -/

/-- What `create` does when nothing is in its way. -/
theorem create_run (now : Nat) (newId : String) (actor : Actor) (title body : String)
    (titled : validateTitle title = .ok ())
    (sized : validateBodyBytes body db.limits.maxBodyBytes = .ok ())
    (few : db.memos.size < db.limits.maxMemoCount) (room : db.HasRoom (Text.len body))
    (unused : db.memos.get? newId = none) :
    ∃ detail, SharedStore.create now newId actor title body none db =
      (.ok detail, db.insertMemo newId (newMemo now actor title body none)) := by
  have present := row?_insertMemo db newId (newMemo now actor title body none)
  have visible : ((db.insertMemo newId (newMemo now actor title body none)).toRow newId
      (newMemo now actor title body none)).visibleTo actor
        ((db.insertMemo newId (newMemo now actor title body none)).permContext newId) = true :=
    Row.visibleTo_of_canManage (Row.canManage_iff.mpr (.inr rfl))
  obtain ⟨detail, shown⟩ : ∃ detail,
      SharedStore.get actor newId (db.insertMemo newId (newMemo now actor title body none)) =
        (.ok detail, db.insertMemo newId (newMemo now actor title body none)) :=
    ⟨_, get_ok.mpr ⟨_, present, visible, rfl, rfl⟩⟩
  have measured : checkTotalCapacity db.limits (Text.len body) db = (.ok (), db) :=
    checkTotalCapacity_ok.mpr ⟨room, rfl⟩
  have free : requireUnused (fun db => (db.memos.get? newId).isSome)
      "UNIQUE constraint failed: memos.id" db = (.ok (), db) :=
    requireUnused_ok.mpr ⟨by simp [unused], rfl⟩
  refine ⟨detail, ?_⟩
  refine (Stateful.run_bind (Stateful.ok_lift.mpr ⟨titled, rfl⟩)).trans ?_
  refine (Stateful.run_bind (Stateful.ok_query.mpr ⟨rfl, rfl⟩)).trans ?_
  refine (Stateful.run_bind (Stateful.ok_lift.mpr ⟨sized, rfl⟩)).trans ?_
  refine (Stateful.run_bind (Stateful.ok_query.mpr ⟨rfl, rfl⟩)).trans ?_
  refine (Stateful.run_bind (Stateful.run_refuse (not_le.mpr few) _ _)).trans ?_
  refine (Stateful.run_bind measured).trans ?_
  refine (Stateful.run_bind (Stateful.ok_query.mpr ⟨rfl, rfl⟩)).trans ?_
  refine (Stateful.run_bind (Stateful.run_refuse Bool.noConfusion _ _)).trans ?_
  refine (Stateful.run_bind free).trans ?_
  exact (Stateful.run_bind (Stateful.run_execute _ _)).trans shown

/-- A limit of 1 MB, for bodies of 256 KB each. -/
def tightStore : StoreRun where
  db := { SharedDb.empty with limits := { maxTotalBytes := 1024 * 1024 } }

theorem exists_len (count : Nat) : ∃ body, Text.len body = count := by
  refine ⟨String.ofList (List.replicate count 'a'), ?_⟩
  induction count with
  | zero => rfl
  | succ count ih =>
      rw [List.replicate_succ, String.ofList_cons, Text.len, String.utf8ByteSize_append,
        String.utf8ByteSize_singleton]
      change _ + Text.len _ = _
      rw [ih]
      exact Nat.add_comm 1 count

section Overfull

variable {body : String} (size : Text.len body = 262144)

def largeMemo (body : String) : MemoRow := newMemo 0 (Actor.host "host") "" body none

def createLarge (body newId : String) : StoreEvent where
  now := 0
  action := .create newId (Actor.host "host") "" body none

include size

/-- One more memo of the largest body. -/
theorem step_createLarge (run : StoreRun) (newId : String) (clock : run.clock = 0)
    (limits : run.db.limits = tightStore.db.limits) (few : run.db.memos.size < 10000)
    (room : run.db.totalBodyBytes + 262144 ≤ 1024 * 1024) (unused : run.db.memos.get? newId = none) :
    ∃ next, step (createLarge body newId) run = some next ∧ next.clock = 0 ∧
      next.db = run.db.insertMemo newId (largeMemo body) ∧
      next.db.totalBodyBytes = run.db.totalBodyBytes + 262144 := by
  have sized : validateBodyBytes body run.db.limits.maxBodyBytes = .ok () := by
    rw [limits, validateBodyBytes, size]
    rfl
  have fits : run.db.HasRoom (Text.len body) := by
    rw [SharedDb.HasRoom, size, limits]
    exact room
  obtain ⟨detail, done⟩ := create_run 0 newId (Actor.host "host") "" body (by decide) sized
    (by rw [limits]; exact few) fits unused
  have added : (run.db.insertMemo newId (largeMemo body)).totalBodyBytes =
      run.db.totalBodyBytes + 262144 := by
    have memos := memoBytes_insertMemo unused (largeMemo body)
    have total : (run.db.insertMemo newId (largeMemo body)).totalBodyBytes =
        (run.db.insertMemo newId (largeMemo body)).memoBytes +
          versionBytes run.db.memoHistory.rows := rfl
    have one : Text.len (largeMemo body).body = 262144 := size
    rw [total, totalBodyBytes_eq run.db, memos, one]
    omega
  obtain ⟨next, happens, clock', after⟩ : ∃ next, step (createLarge body newId) run = some next ∧
      next.clock = 0 ∧ next.db = run.db.insertMemo newId (largeMemo body) := by
    refine ⟨_, if_neg (Nat.not_lt.mpr clock.le), rfl, ?_⟩
    simp only [createLarge, MemoAction.perform, bind, done]
    rfl
  exact ⟨next, happens, clock', after, after ▸ added⟩

/-- Four memos fill the store. -/
theorem filled :
    ∃ run, Runs.run step (["a", "b", "c", "d"].map (createLarge body)) tightStore = some run ∧
      run.clock = 0 ∧
      run.db = (((tightStore.db.insertMemo "a" (largeMemo body)).insertMemo "b"
        (largeMemo body)).insertMemo "c" (largeMemo body)).insertMemo "d" (largeMemo body) ∧
      run.db.totalBodyBytes = 1024 * 1024 := by
  obtain ⟨one, first, clock, db₁, bytes₁⟩ := step_createLarge size tightStore "a" rfl rfl
    (by decide) (by decide) rfl
  have empty : tightStore.db.totalBodyBytes = 0 := rfl
  obtain ⟨two, second, clock, db₂, bytes₂⟩ := step_createLarge size one "b" clock (db₁ ▸ rfl)
    (by rw [db₁]; exact (by decide : 1 < 10000)) (by omega) (db₁ ▸ rfl)
  rw [db₁] at db₂
  obtain ⟨three, third, clock, db₃, bytes₃⟩ := step_createLarge size two "c" clock (db₂ ▸ rfl)
    (by rw [db₂]; exact (by decide : 2 < 10000)) (by omega) (db₂ ▸ rfl)
  rw [db₂] at db₃
  obtain ⟨four, fourth, clock, db₄, bytes₄⟩ := step_createLarge size three "d" clock (db₃ ▸ rfl)
    (by rw [db₃]; exact (by decide : 3 < 10000)) (by omega) (db₃ ▸ rfl)
  rw [db₃] at db₄
  refine ⟨four, ?_, clock, db₄, by omega⟩
  exact Runs.run_cons.mpr ⟨one, first, Runs.run_cons.mpr ⟨two, second,
    Runs.run_cons.mpr ⟨three, third, Runs.run_cons.mpr ⟨four, fourth, rfl⟩⟩⟩⟩

/-- A version of one of them is stored all the same. -/
theorem overfilled :
    ∃ run, Runs.run step (["a", "b", "c", "d"].map (createLarge body) ++
      [{ now := 1, action := .saveVersion (Actor.host "host") "d" }]) tightStore = some run ∧
        ¬ run.Within := by
  obtain ⟨run, reached, clock, db, bytes⟩ := filled size
  have history : run.db.memoHistory = Table.empty := db ▸ rfl
  have ordered : run.db.Ordered run.clock := ordered_of_empty (by rw [history]; rfl)
  obtain ⟨row, present, written, edit⟩ : ∃ row, run.db.row? "d" = some row ∧ row.body = body ∧
      ∀ ctx, row.canEdit (Actor.host "host") ctx = true := by
    rw [db]
    exact ⟨_, row?_insertMemo _ "d" (largeMemo body), rfl, fun _ => rfl⟩
  obtain ⟨next, happens⟩ : ∃ next,
      step { now := 1, action := .saveVersion (Actor.host "host") "d" } run = some next :=
    ⟨_, if_neg (by rw [clock]; decide)⟩
  refine ⟨next, Runs.run_append.mpr ⟨run, reached, Runs.run_cons.mpr ⟨next, happens, rfl⟩⟩, ?_⟩
  intro within
  have limits : run.db.limits = tightStore.db.limits := db ▸ rfl
  have start : run.Within := by rw [Within, bytes, limits]; decide
  have fits := (within_step ordered (by rw [limits]; decide) start happens).mp within
  have none_ : run.db.historyOf "d" = [] := by rw [SharedDb.historyOf, history]; rfl
  have unchecked : uncheckedVersion (.saveVersion (Actor.host "host") "d") run.db = some row := by
    rw [uncheckedVersion, present, Option.filter_some, if_pos]
    rw [edit, latestHistory, none_]
    rfl
  have named : row.id = "d" := (row?_isSome present).2.1
  have enough := fits row unchecked
  rw [bytes, written, size, limits, named, survivors, none_, List.take_nil,
    List.filter_nil] at enough
  exact absurd enough (by decide)

end Overfull

/-- A store can be filled over its limit. -/
theorem storage_unlimited :
    ¬ ∀ (limits : SharedMemoLimits) (events : List StoreEvent) (run : StoreRun),
      limits.validate = .ok () →
      Runs.run step events { db := { SharedDb.empty with limits := limits } } = some run →
        run.Within := by
  intro always
  obtain ⟨body, size⟩ := exists_len 262144
  obtain ⟨run, reached, exceeds⟩ := overfilled size
  exact exceeds (always tightStore.db.limits _ run (by decide) reached)

end StoreRun

end PeerCove
