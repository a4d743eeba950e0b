/-
Module: PeerCove.Proofs.HistoryRetention
Layer: Proofs
Purpose: Which versions of a memo are stored: the newest ones, up to the maximum and as long as they
  are fresh, over all runs under a clock that does not go back.
Trusted boundary: none
Main exports: SharedDb.Ordered, SharedDb.versionsOf_withSnapshot, StoreRun.Tracked,
  StoreRun.history_retained
-/
import PeerCove.Library.Retention
import PeerCove.Library.Runs
import PeerCove.Proofs.StoreActions

namespace PeerCove

open SharedStore Retention

namespace SharedDb

/-- The versions of a memo in the order they were stored. -/
def versionsOf (id : String) (db : SharedDb) : List (Nat × HistoryRow) :=
  db.memoHistory.rows.filter (fun version => version.2.memoId = id)

/-- Numbers and times of the versions grow in the order of the table. -/
structure Ordered (clock : Nat) (db : SharedDb) : Prop where
  numbered : db.memoHistory.rows.Pairwise (fun one two => one.1 < two.1)
  dated : db.memoHistory.rows.Pairwise (fun one two => one.2.createdAt ≤ two.2.createdAt)
  counted : ∀ version ∈ db.memoHistory.rows, version.1 ≤ db.lastHid
  past : ∀ version ∈ db.memoHistory.rows, version.2.createdAt ≤ clock

variable {clock now : Nat} {db : SharedDb} {id kind : String} {row : Row}

theorem ordered_of_empty (empty : db.memoHistory.rows = []) : db.Ordered clock where
  numbered := empty ▸ List.Pairwise.nil
  dated := empty ▸ List.Pairwise.nil
  counted := fun _ listed => absurd (empty ▸ listed) List.not_mem_nil
  past := fun _ listed => absurd (empty ▸ listed) List.not_mem_nil

/-- Some of the versions are still in order. -/
theorem Ordered.sublist (ordered : db.Ordered clock) {db' : SharedDb}
    (fewer : db'.memoHistory.rows.Sublist db.memoHistory.rows) (counter : db'.lastHid = db.lastHid) :
    db'.Ordered clock where
  numbered := ordered.numbered.sublist fewer
  dated := ordered.dated.sublist fewer
  counted := fun version listed => counter ▸ ordered.counted version (fewer.subset listed)
  past := fun version listed => ordered.past version (fewer.subset listed)

theorem Ordered.later (ordered : db.Ordered clock) (time : clock ≤ now) : db.Ordered now :=
  { ordered with past := fun version listed => (ordered.past version listed).trans time }

/-- The next number is unused. -/
theorem Ordered.rows_insertHistory (ordered : db.Ordered clock) (version : HistoryRow) :
    (db.insertHistory version).memoHistory.rows =
      db.memoHistory.rows ++ [(db.lastHid + 1, version)] := by
  have absent : db.memoHistory.get? (db.lastHid + 1) = none := by
    rw [Table.get?_eq_none]
    intro other listed
    exact absurd (ordered.counted _ listed) (Nat.not_succ_le_self _)
  exact Table.rows_insert absent version

theorem Ordered.insertHistory (ordered : db.Ordered clock) (version : HistoryRow)
    (time : clock ≤ version.createdAt) :
    (db.insertHistory version).Ordered version.createdAt := by
  have rows := ordered.rows_insertHistory version
  constructor
  · rw [rows, List.pairwise_append]
    refine ⟨ordered.numbered, List.pairwise_singleton _ _, fun one listed two last => ?_⟩
    rw [List.mem_singleton.mp last]
    exact Nat.lt_succ_of_le (ordered.counted one listed)
  · rw [rows, List.pairwise_append]
    refine ⟨ordered.dated, List.pairwise_singleton _ _, fun one listed two last => ?_⟩
    rw [List.mem_singleton.mp last]
    exact (ordered.past one listed).trans time
  · intro other listed
    rw [rows] at listed
    rcases List.mem_append.mp listed with old | new
    · exact Nat.le_succ_of_le (ordered.counted other old)
    · rw [List.mem_singleton.mp new]
      exact le_rfl
  · intro other listed
    rw [rows] at listed
    rcases List.mem_append.mp listed with old | new
    · exact (ordered.past other old).trans time
    · rw [List.mem_singleton.mp new]

/-- Newest first is the other way round. -/
theorem Ordered.historyOf (ordered : db.Ordered clock) (id : String) :
    db.historyOf id = (versionsOf id db).reverse := by
  apply insertionSort_eq_reverse
  refine List.Pairwise.imp ?_ ((ordered.numbered.and ordered.dated).sublist List.filter_sublist)
  rintro one two ⟨number, date⟩
  omega

/-- A version that is not too old to keep. -/
def fresh (now : Nat) (limits : SharedMemoLimits) (version : Nat × HistoryRow) : Bool :=
  ¬ version.2.createdAt + limits.historyDays * DAY_MS < now

theorem fresh_later (now : Nat) (limits : SharedMemoLimits) {log : List (Nat × HistoryRow)}
    (dated : log.Pairwise (fun one two => one.2.createdAt ≤ two.2.createdAt)) :
    log.Pairwise (fun one two =>
      fresh now limits one = true → fresh now limits two = true) := by
  refine dated.imp (fun {one two} date isFresh => ?_)
  simp only [fresh, decide_eq_true_eq] at isFresh ⊢
  omega

/-- After `trim_history` the memo has the newest of its versions. -/
theorem Ordered.versionsOf_trim (ordered : db.Ordered clock) (now : Nat) (id : String)
    (limits : SharedMemoLimits) :
    versionsOf id (db.trimHistory now id limits) =
      retained limits.maxVersions (fresh now limits) (versionsOf id db) := by
  have newest : ((db.historyOf id).take limits.maxVersions).map Prod.fst =
      (((versionsOf id db).rtake limits.maxVersions).map Prod.fst).reverse := by
    rw [ordered.historyOf, List.rtake_eq_reverse_take_reverse, List.map_reverse,
      List.reverse_reverse]
  have distinct : ((versionsOf id db).map Prod.fst).Nodup :=
    db.memoHistory.nodup.sublist (List.filter_sublist.map _)
  rw [retained, ← filter_key_rtake distinct]
  generalize (versionsOf id db).rtake limits.maxVersions = last at newest
  have rows : (db.trimHistory now id limits).memoHistory.rows =
      db.memoHistory.rows.filter (fun version => version.2.memoId ≠ id ∨
        (version.1 ∈ (last.map Prod.fst).reverse ∧
          ¬ version.2.createdAt + limits.historyDays * DAY_MS < now)) := newest ▸ rfl
  rw [versionsOf, rows, List.filter_filter, List.filter_filter, versionsOf, List.filter_filter]
  refine List.filter_congr (fun version _ => ?_)
  by_cases mine : version.2.memoId = id
  · rw [Bool.eq_iff_iff, Bool.and_eq_true, Bool.and_eq_true, Bool.and_eq_true, fresh,
      decide_eq_true_iff, decide_eq_true_iff, decide_eq_true_iff, decide_eq_true_iff,
      List.mem_reverse]
    tauto
  · simp [mine]

theorem versionsOf_trim_other (now : Nat) (limits : SharedMemoLimits) {other : String}
    (differs : other ≠ id) :
    versionsOf other (db.trimHistory now id limits) = versionsOf other db := by
  change (List.filter _ (List.filter _ _)) = _
  rw [List.filter_filter]
  refine List.filter_congr (fun version _ => ?_)
  by_cases theirs : version.2.memoId = other
  · simp [theirs, differs]
  · simp [theirs]

/-- After a snapshot the memo has the newest of its versions and the new one. -/
theorem Ordered.versionsOf_withSnapshot (ordered : db.Ordered clock) (time : clock ≤ now)
    (kind : String) (row : Row) :
    versionsOf row.id (withSnapshot now kind row db) =
      retained db.limits.maxVersions (fresh now db.limits)
        (versionsOf row.id db ++ [(db.lastHid + 1, versionOf now kind row)]) := by
  rw [withSnapshot, (ordered.insertHistory (versionOf now kind row) time).versionsOf_trim]
  congr 1
  rw [versionsOf, ordered.rows_insertHistory, List.filter_append]
  congr 1
  simp [versionOf]

theorem Ordered.versionsOf_withSnapshot_other (ordered : db.Ordered clock) {other : String}
    (differs : other ≠ row.id) :
    versionsOf other (withSnapshot now kind row db) = versionsOf other db := by
  rw [withSnapshot, versionsOf_trim_other now db.limits differs, versionsOf,
    ordered.rows_insertHistory, List.filter_append, List.filter_cons_of_neg, List.filter_nil,
    List.append_nil]
  · rfl
  · exact fun same => differs (of_decide_eq_true same).symm

theorem Ordered.withSnapshot (ordered : db.Ordered clock) (time : clock ≤ now) (kind : String)
    (row : Row) : (withSnapshot now kind row db).Ordered now := by
  have added := ordered.insertHistory (versionOf now kind row) time
  exact added.sublist List.filter_sublist rfl

end SharedDb

open SharedDb

/-! ### One action -/

/-- A change that stores no version, and the one of an action that does. -/
inductive Advance (db db' : SharedDb) : Prop where
  | calm (counter : db'.lastHid = db.lastHid)
      (fewer : db'.memoHistory.rows.Sublist db.memoHistory.rows)
      (last : ∀ id, versionsOf id db' <:+ versionsOf id db)
  | stored (version : HistoryRow) (counter : db'.lastHid = db.lastHid + 1)
      (new : StoreRun.newVersions db.lastHid db' = [(db'.lastHid, version)])
      (there : (db'.lastHid, version) ∈ db'.memoHistory.rows)
      (few : (versionsOf version.memoId db').length ≤ db'.limits.maxVersions)
      (last : ∀ id, versionsOf id db' <:+ versionsOf id db ++
        if version.memoId = id then [(db'.lastHid, version)] else [])

variable {clock now : Nat} {db db' : SharedDb}

theorem advance_withSnapshot (ordered : db.Ordered clock) (time : clock ≤ now)
    (positive : 1 ≤ db.limits.maxVersions) (kind : String) (row : Row) :
    Advance db (withSnapshot now kind row db) := by
  obtain ⟨count, counted⟩ := Nat.exists_eq_succ_of_ne_zero (Nat.one_le_iff_ne_zero.mp positive)
  have isFresh : fresh now db.limits (db.lastHid + 1, versionOf now kind row) = true :=
    decide_eq_true (Nat.not_lt.mpr (Nat.le_add_right now _))
  have versions := ordered.versionsOf_withSnapshot time kind row
  have kept : versionsOf row.id (withSnapshot now kind row db) =
      retained count (fresh now db.limits) (versionsOf row.id db) ++
        [(db.lastHid + 1, versionOf now kind row)] := by
    rw [versions, counted, retained_concat isFresh]
  have there : (db.lastHid + 1, versionOf now kind row) ∈
      (withSnapshot now kind row db).memoHistory.rows := by
    refine (List.mem_filter.mp (?_ : _ ∈ versionsOf row.id _)).1
    rw [kept]
    exact List.mem_append_right _ List.mem_cons_self
  refine .stored (versionOf now kind row) rfl ?_ there ?_ ?_
  · have rows := ordered.rows_insertHistory (versionOf now kind row)
    have old : db.memoHistory.rows.filter (fun version => db.lastHid < version.1) = [] := by
      refine List.filter_eq_nil_iff.mpr (fun version listed more => ?_)
      exact absurd (ordered.counted version listed) (not_le.mpr (of_decide_eq_true more))
    have single : (StoreRun.newVersions db.lastHid (withSnapshot now kind row db)).Sublist
        [(db.lastHid + 1, versionOf now kind row)] := by
      have sub : (withSnapshot now kind row db).memoHistory.rows.Sublist
          (db.memoHistory.rows ++ [(db.lastHid + 1, versionOf now kind row)]) :=
        rows ▸ List.filter_sublist
      have filtered := sub.filter (fun version => db.lastHid < version.1)
      rw [List.filter_append, old, List.nil_append,
        List.filter_cons_of_pos (by simp), List.filter_nil] at filtered
      exact filtered
    have member : (db.lastHid + 1, versionOf now kind row) ∈
        StoreRun.newVersions db.lastHid (withSnapshot now kind row db) :=
      List.mem_filter.mpr ⟨there, decide_eq_true (Nat.lt_succ_self _)⟩
    exact single.eq_of_length_le (List.length_pos_of_mem member)
  · change (versionsOf row.id _).length ≤ db.limits.maxVersions
    rw [versions]
    exact length_retained_le _ _ _
  · intro id
    by_cases same : row.id = id
    · subst same
      change _ <:+ _ ++ if row.id = row.id then _ else _
      rw [if_pos rfl, kept]
      have last : retained count (fresh now db.limits) (versionsOf row.id db) <:+
          versionsOf row.id db :=
        retained_suffix (fresh_later now db.limits (ordered.dated.sublist List.filter_sublist))
      obtain ⟨older, split⟩ := last
      exact ⟨older, by rw [← List.append_assoc, split]; rfl⟩
    · change _ <:+ _ ++ if row.id = id then _ else _
      rw [if_neg same, List.append_nil, ordered.versionsOf_withSnapshot_other (Ne.symm same)]

theorem Advance.congr {after : SharedDb} (advance : Advance db after)
    (history : db'.memoHistory = after.memoHistory) (counter : db'.lastHid = after.lastHid)
    (limits : db'.limits = after.limits) : Advance db db' := by
  have versions : ∀ id, versionsOf id db' = versionsOf id after :=
    fun id => by rw [versionsOf, versionsOf, history]
  cases advance with
  | calm same fewer last =>
      exact .calm (counter.trans same) (history ▸ fewer) (fun id => versions id ▸ last id)
  | stored version next new there few last =>
      refine .stored version (counter.trans next) ?_ ?_ ?_ (fun id => ?_)
      · rw [StoreRun.newVersions, history, counter]
        exact new
      · rw [history, counter]
        exact there
      · rw [versions, limits]
        exact few
      · rw [versions, counter]
        exact last id

theorem advance_same (db : SharedDb) : Advance db db :=
  .calm rfl (List.Sublist.refl _) (fun _ => List.suffix_rfl)

theorem advance_purge (db : SharedDb) (id : String) (now : Nat) :
    Advance db (db.purgeMemo id now) := by
  refine .calm rfl List.filter_sublist (fun other => ?_)
  change (List.filter _ (List.filter _ _)) <:+ _
  rw [List.filter_filter]
  by_cases same : other = id
  · have none_ : db.memoHistory.rows.filter (fun version =>
        decide (version.2.memoId = other) && decide (version.2.memoId ≠ id)) = [] := by
      refine List.filter_eq_nil_iff.mpr (fun version _ both => ?_)
      simp [same] at both
    rw [none_]
    exact List.nil_suffix
  · have all : db.memoHistory.rows.filter (fun version =>
        decide (version.2.memoId = other) && decide (version.2.memoId ≠ id)) =
          versionsOf other db := by
      refine List.filter_congr (fun version _ => ?_)
      by_cases theirs : version.2.memoId = other
      · simp [theirs, same]
      · simp [theirs]
    rw [all]

/-- Every action keeps the order, the limits, and the newest versions. -/
theorem advance_perform (ordered : db.Ordered clock) (time : clock ≤ now)
    (positive : 1 ≤ db.limits.maxVersions) {action : MemoAction}
    (change : ActionChange now action db db') :
    db'.Ordered now ∧ db'.limits = db.limits ∧ Advance db db' := by
  cases change with
  | same => exact ⟨ordered.later time, rfl, advance_same db⟩
  | create newId memo =>
      exact ⟨(ordered.later time).sublist (List.Sublist.refl _) rfl, rfl,
        (advance_same db).congr rfl rfl rfl⟩
  | update actor id title body row =>
      unfold withAutoSnapshot
      split
      · exact ⟨(ordered.withSnapshot time _ row).sublist (List.Sublist.refl _) rfl, rfl,
          (advance_withSnapshot ordered time positive "auto" row).congr rfl rfl rfl⟩
      · exact ⟨(ordered.later time).sublist (List.Sublist.refl _) rfl, rfl,
          (advance_same db).congr rfl rfl rfl⟩
  | historyRestore actor id title body row =>
      exact ⟨(ordered.withSnapshot time _ row).sublist (List.Sublist.refl _) rfl, rfl,
        (advance_withSnapshot ordered time positive "restore" row).congr rfl rfl rfl⟩
  | version kind id row =>
      exact ⟨ordered.withSnapshot time kind row, rfl,
        advance_withSnapshot ordered time positive kind row⟩
  | mark id change =>
      exact ⟨(ordered.later time).sublist (List.Sublist.refl _) rfl, rfl,
        (advance_same db).congr rfl rfl rfl⟩
  | purge id =>
      exact ⟨(ordered.later time).sublist List.filter_sublist rfl, rfl, advance_purge db id now⟩

/-! ### Runs -/

namespace StoreRun

/-- The versions of each memo are the newest ones that were stored. -/
structure Tracked (limits : SharedMemoLimits) (run : StoreRun) : Prop where
  ordered : run.db.Ordered run.clock
  limits : run.db.limits = limits
  latest : ∀ id, versionsOf id run.db <:+
    run.stored.filter (fun version => version.2.memoId = id)

theorem step_some {event : StoreEvent} {run next : StoreRun} (happens : step event run = some next) :
    run.clock ≤ event.now ∧ next.clock = event.now ∧
      next.db = (event.action.perform event.now run.db).2 ∧
      next.stored = run.stored ++ newVersions run.db.lastHid next.db := by
  unfold step at happens
  split at happens
  · cases happens
  · cases happens
    exact ⟨not_lt.mp ‹_›, rfl, rfl, rfl⟩

/-- What is known after a step: the database, and the versions that were stored. -/
theorem step_advance {limits : SharedMemoLimits} {event : StoreEvent} {run next : StoreRun}
    (tracked : run.Tracked limits) (positive : 1 ≤ limits.maxVersions)
    (happens : step event run = some next) :
    next.db.Ordered next.clock ∧ next.db.limits = limits ∧ Advance run.db next.db := by
  obtain ⟨time, clock, after, _⟩ := step_some happens
  have change := perform_actionChange event.now event.action run.db
  rw [← after] at change
  have advanced := advance_perform tracked.ordered time (tracked.limits ▸ positive) change
  exact ⟨clock ▸ advanced.1, advanced.2.1.trans tracked.limits, advanced.2.2⟩

theorem newVersions_eq_nil {clock : Nat} {db db' : SharedDb} (ordered : db'.Ordered clock)
    (counter : db'.lastHid = db.lastHid) : newVersions db.lastHid db' = [] := by
  refine List.filter_eq_nil_iff.mpr (fun version listed more => ?_)
  exact absurd (counter ▸ ordered.counted version listed) (not_le.mpr (of_decide_eq_true more))

theorem tracked_step {limits : SharedMemoLimits} {event : StoreEvent} {run next : StoreRun}
    (tracked : run.Tracked limits) (positive : 1 ≤ limits.maxVersions)
    (happens : step event run = some next) : next.Tracked limits := by
  obtain ⟨ordered, same, advance⟩ := step_advance tracked positive happens
  refine ⟨ordered, same, fun id => ?_⟩
  rw [(step_some happens).2.2.2, List.filter_append]
  cases advance with
  | calm counter fewer last =>
      rw [newVersions_eq_nil ordered counter, List.filter_nil, List.append_nil]
      exact (last id).trans (tracked.latest id)
  | stored version counter new there few last =>
      rw [new]
      obtain ⟨older, split⟩ := tracked.latest id
      refine (last id).trans ⟨older, ?_⟩
      rw [← List.append_assoc, split]
      congr 1
      by_cases mine : version.memoId = id
      · simp [mine]
      · simp [mine]

/-- What a step leaves of the versions. -/
structure Retained (event : StoreEvent) (run next : StoreRun) : Prop where
  /-- The versions of each memo are the newest ones that were ever stored. -/
  latest : ∀ id, versionsOf id next.db <:+
    next.stored.filter (fun version => version.2.memoId = id)
  /-- A version is stored as the next one, and there are not too many of its memo. -/
  snapshot : next.db.lastHid = run.db.lastHid ∧ next.stored = run.stored ∨
    ∃ version, next.stored = run.stored ++ [(next.db.lastHid, version)] ∧
      (next.db.lastHid, version) ∈ next.db.memoHistory.rows ∧
      (versionsOf version.memoId next.db).length ≤ next.db.limits.maxVersions
  /-- What a restoration replaces is stored. -/
  restored : ∀ actor id hid detail db', event.action = .historyRestore actor id hid →
    historyRestore event.now actor id hid run.db = (.ok detail, db') →
      ∃ row, run.db.row? id = some row ∧ ∃ version ∈ versionsOf id next.db,
        version.2.title = row.title ∧ version.2.body = row.body

/-- A successful restoration stores a version of what it replaces. -/
theorem restored_stored {clock now : Nat} {db db' : SharedDb} (ordered : db.Ordered clock)
    (time : clock ≤ now) (positive : 1 ≤ db.limits.maxVersions) {actor : Actor} {id : String}
    {hid : Nat} {detail : SharedMemoDetail}
    (done : historyRestore now actor id hid db = (.ok detail, db')) :
    ∃ row, db.row? id = some row ∧ ∃ version ∈ versionsOf id db',
      version.2.title = row.title ∧ version.2.body = row.body := by
  obtain ⟨row, _, present, _, _, _, rfl⟩ := historyRestore_ok done
  refine ⟨row, present, (db.lastHid + 1, versionOf now "restore" row), ?_, rfl, rfl⟩
  obtain ⟨count, counted⟩ := Nat.exists_eq_succ_of_ne_zero (Nat.one_le_iff_ne_zero.mp positive)
  have isFresh : fresh now db.limits (db.lastHid + 1, versionOf now "restore" row) = true :=
    decide_eq_true (Nat.not_lt.mpr (Nat.le_add_right now _))
  have versions := ordered.versionsOf_withSnapshot time "restore" row
  rw [(row?_isSome present).2.1, counted, retained_concat isFresh] at versions
  change _ ∈ versionsOf id (withSnapshot now "restore" row db)
  rw [versions]
  exact List.mem_append_right _ List.mem_cons_self

/-- Along every run the newest versions are kept, up to the maximum. -/
theorem history_retained {start run next : StoreRun} {events : List StoreEvent} {event : StoreEvent}
    (ordered : start.db.Ordered start.clock) (listed : start.stored = start.db.memoHistory.rows)
    (positive : 1 ≤ start.db.limits.maxVersions)
    (reached : Runs.run step events start = some run) (happens : step event run = some next) :
    Retained event run next := by
  have tracked : run.Tracked start.db.limits :=
    Runs.run_keeps (Tracked start.db.limits)
      (fun _ _ _ tracked happens => tracked_step tracked positive happens)
      ⟨ordered, rfl, fun _ => listed ▸ List.suffix_rfl⟩ reached
  obtain ⟨after, _, advance⟩ := step_advance tracked positive happens
  obtain ⟨time, _, performed, stored⟩ := step_some happens
  refine ⟨(tracked_step tracked positive happens).latest, ?_, ?_⟩
  · cases advance with
    | calm counter fewer last =>
        refine .inl ⟨counter, ?_⟩
        rw [stored, newVersions_eq_nil after counter, List.append_nil]
    | stored version counter new there few last =>
        exact .inr ⟨version, new ▸ stored, there, few⟩
  · intro actor id hid detail db' isRestore done
    have same : next.db = db' := by
      rw [performed, isRestore]
      simp only [MemoAction.perform, bind, done]
      rfl
    rw [same]
    exact restored_stored tracked.ordered time (tracked.limits ▸ positive) done

/-- A memo is written, saved and restored while two versions are kept. -/
def twoVersions : StoreRun where
  db := { SharedDb.empty with limits := { maxVersions := 2 } }

def savedTwice : List StoreEvent :=
  let host := Actor.host "host"
  [{ now := 1000, action := .create "memo" host "title" "one" none },
    { now := 2000, action := .saveVersion host "memo" },
    { now := 3000, action := .update host "memo" 1 "title" "two" },
    { now := 4000, action := .saveVersion host "memo" }]

theorem history_retained_savedTwice :
    ∃ run next, Runs.run step savedTwice twoVersions = some run ∧
      step { now := 5000, action := .historyRestore (Actor.host "host") "memo" 1 } run =
        some next ∧
      next.db.memoHistory.rows.map (fun version => version.2.body) = ["two", "two"] ∧
      Retained { now := 5000, action := .historyRestore (Actor.host "host") "memo" 1 } run next := by
  have ends : ((Runs.run step savedTwice twoVersions).bind (fun run =>
      (step { now := 5000, action := .historyRestore (Actor.host "host") "memo" 1 } run).map
        (fun next => next.db.memoHistory.rows.map (fun version => version.2.body)))) =
      some ["two", "two"] := by decide
  obtain ⟨run, reached, ends⟩ := Option.bind_eq_some_iff.mp ends
  obtain ⟨next, happens, bodies⟩ := Option.map_eq_some_iff.mp ends
  have ordered : twoVersions.db.Ordered twoVersions.clock := ordered_of_empty rfl
  exact ⟨run, next, reached, happens, bodies,
    history_retained ordered rfl (by decide) reached happens⟩

end StoreRun

end PeerCove
