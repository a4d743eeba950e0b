/-
Module: PeerCove.Proofs.EditProtocol
Layer: Proofs
Purpose: Editing of shared memos over all runs of the memo service: who writes holds the lock, writes
  on the revision that is stored, and replaces only what could be seen under that revision.
Trusted boundary: none
Main exports: EditsSafely, NotOvertaken, edits_safely
-/
import PeerCove.Proofs.ServiceRuns

namespace PeerCove

open Tasks

/-- A request of the actor that runs on the database in this turn, and succeeds. -/
def Succeeds (before : ServiceSystem) (env : ServiceEnv) (task : ServiceTask) (actor : Actor)
    (op : SharedMemoOp) : Prop :=
  task.performs? = some (actor, op) ∧ ∃ reply after,
    SharedStore.perform env.toStoreEnv actor op before.shared.sharedStore = (.ok reply, after)

/-- What holds of the editing of memos in a run. -/
structure EditsSafely (past : ServicePast) (state : ServiceSystem) : Prop where
  oneHolder : ∀ service ∈ observed id past state, ∀ (memoId : String) (one two : LockInfo),
    (memoId, one) ∈ service.locks.rows → (memoId, two) ∈ service.locks.rows → one = two
  /-- An update is on the stored revision, and makes the next one. -/
  current : ∀ (before : ServiceSystem) (env : ServiceEnv) (task : ServiceTask) (actor : Actor)
    (id : String) (base : Nat) (title body : String), (before, .turn env task) ∈ past →
    Succeeds before env task actor (.update id base title body) →
    ∃ replaced, storedContent before id = some (base, replaced) ∧
      contentAfter before env task id = some (base + 1, title, body)
  /-- Nobody else holds an unexpired lock on the memo that is updated. -/
  unlocked : ∀ (before : ServiceSystem) (env : ServiceEnv) (task : ServiceTask) (actor : Actor)
    (id : String) (base : Nat) (title body : String), (before, .turn env task) ∈ past →
    Succeeds before env task actor (.update id base title body) →
    ∀ lock, before.shared.locks.get? id = some lock → lock.expired env.instant = false →
      lock.key = actor.key
  /-- A restored version is the next revision. -/
  restored : ∀ (before : ServiceSystem) (env : ServiceEnv) (task : ServiceTask) (actor : Actor)
    (id : String) (hid : Nat), (before, .turn env task) ∈ past →
    Succeeds before env task actor (.historyRestore id hid) →
    ∃ revision replaced version, storedContent before id = some (revision, replaced) ∧
      contentAfter before env task id = some (revision + 1, version)
  /-- Of two updates of one memo, which was there in between, the later one is on a later revision. -/
  distinct : ∀ (newer between older : ServicePast) (before earlier : ServiceSystem)
    (env env' : ServiceEnv) (task task' : ServiceTask) (actor actor' : Actor) (id : String)
    (base base' : Nat) (title title' body body' : String),
    past = newer ++ (before, .turn env task) :: between ++ (earlier, .turn env' task') :: older →
    Succeeds before env task actor (.update id base title body) →
    Succeeds earlier env' task' actor' (.update id base' title' body') →
    (∀ entry ∈ between, storedContent entry.1 id ≠ none) → base' < base
  /-- What an update replaces is all that was ever stored of the memo under its base revision. -/
  seen : ∀ (newer between older : ServicePast) (before earlier : ServiceSystem) (env : ServiceEnv)
    (task : ServiceTask) (event : Event ServiceEnv ServiceTask) (actor : Actor) (id : String)
    (base : Nat) (title body : String) (shown : String × String),
    past = newer ++ (before, .turn env task) :: between ++ (earlier, event) :: older →
    Succeeds before env task actor (.update id base title body) →
    (∀ entry ∈ between, storedContent entry.1 id ≠ none) →
    storedContent earlier id = some (base, shown) → storedContent before id = some (base, shown)

/-- A lock is given to an actor while an update of the memo by another actor waits. -/
def overtakes : Option (String × String) → Option (Actor × SharedMemoOp) → Bool
  | some (id, key), some (actor, .update memo _ _ _) => memo = id && actor.key ≠ key
  | _, _ => false

/-- The condition on a step: no actor is given the lock of a memo while an update of the memo by
another actor has passed its lock check and waits for the database. -/
def NotOvertaken (state : ServiceSystem) : Event ServiceEnv ServiceTask → Prop
  | .turn env task => ∀ waiting ∈ state.tasks,
      overtakes (task.takes? env state.shared) waiting.performs? = false
  | .arrive _ => True
  | .cancel _ => True

instance (state : ServiceSystem) (event : Event ServiceEnv ServiceTask) :
    Decidable (NotOvertaken state event) :=
  match event with
  | .turn env task => inferInstanceAs (Decidable (∀ waiting ∈ state.tasks,
      overtakes (task.takes? env state.shared) waiting.performs? = false))
  | .arrive _ => inferInstanceAs (Decidable True)
  | .cancel _ => inferInstanceAs (Decidable True)

/-! ### Tasks that run on the database -/

namespace ServiceTask

variable {env : ServiceEnv} {service : MemoService}

/-- What is left of a cancelled request runs the operation it waited for. -/
theorem cancelled_update {task next : ServiceTask} {rest : List ServiceTask} {actor : Actor}
    {id title body : String} {base : Nat} (left : cancelled task = some rest)
    (member : next ∈ rest)
    (updates : next.performs? = some (actor, .update id base title body)) :
    task.performs? = some (actor, .update id base title body) := by
  unfold cancelled at left
  split at left
  · cases left
    cases member
  · cases left
    rename_i origin seq other op
    split at member
    · rename_i begins
      rw [List.mem_singleton.mp member] at updates
      rw [performs?, if_pos begins]
      exact updates
    · cases member
  · cases left
    rw [List.mem_singleton.mp member] at updates
    exact updates
  · cases left
    cases member
  · cases left
    rw [List.mem_singleton.mp member] at updates
    cases updates
  · cases left
    cases member
  · cases left

theorem arrives_idle {task : ServiceTask} (allowed : task.arrives = true) :
    task.performs? = none := by
  cases task with
  | handle request => cases allowed
  | store request => cases allowed
  | abandoned actor op => cases allowed
  | _ => rfl

end ServiceTask

/-! ### Who waits to write holds the lock -/

/-- No update that waits for the database is of an actor other than the holder of the lock. -/
def WaitingHoldLocks (state : ServiceSystem) : Prop :=
  ∀ task ∈ state.tasks, ∀ (actor : Actor) (id : String) (base : Nat) (title body : String),
    task.performs? = some (actor, .update id base title body) →
    ∀ lock, state.shared.locks.get? id = some lock → lock.key = actor.key

theorem waiting_step {state next : ServiceSystem} {event : Event ServiceEnv ServiceTask}
    (waiting : WaitingHoldLocks state) (fair : NotOvertaken state event)
    (step : Step memoService state event next) : WaitingHoldLocks next := by
  cases step with
  | arrive task allowed =>
      intro other member actor id base title body updates
      rcases List.mem_append.mp member with member | member
      · exact waiting other member actor id base title body updates
      · rw [List.mem_singleton.mp member, ServiceTask.arrives_idle allowed] at updates
        cases updates
  | turn env task before after there =>
      intro other member actor id base title body updates lock held
      have stays (old : other ∈ state.tasks) : lock.key = actor.key := by
        rcases ServiceTask.holder_turn held with ⟨earlier, had, same⟩ | takes
        · rw [← same]
          exact waiting other old actor id base title body updates earlier had
        · have calm := fair other old
          rw [takes, updates] at calm
          have same : actor.key = lock.key := by simpa [overtakes] using calm
          exact same.symm
      rcases List.mem_append.mp member with member | member
      · rcases List.mem_append.mp member with member | member
        · apply stays
          rw [there]
          exact List.mem_append_left _ member
        · -- the update has just passed its check
          rcases ServiceTask.spawned_update member updates with ⟨origin, rfl, passed⟩
          rcases ServiceTask.checkUpdateLock_ok passed with ⟨own, had, mine⟩
          rcases ServiceTask.get?_checkUpdateLock held with ⟨earlier, had', same, _⟩
          rw [had] at had'
          cases had'
          rw [← same, mine]
      · apply stays
        rw [there]
        exact List.mem_append_right _ (List.mem_cons_of_mem _ member)
  | cancel task rest before after there left =>
      intro other member actor id base title body updates lock held
      rcases List.mem_append.mp member with member | member
      · rcases List.mem_append.mp member with member | member
        · apply waiting other _ actor id base title body updates lock held
          rw [there]
          exact List.mem_append_left _ member
        · apply waiting task _ actor id base title body
            (ServiceTask.cancelled_update left member updates) lock held
          rw [there]
          exact List.mem_append_right _ List.mem_cons_self
      · apply waiting other _ actor id base title body updates lock held
        rw [there]
        exact List.mem_append_right _ (List.mem_cons_of_mem _ member)

theorem waiting_start (config : Config) (db : SharedDb) :
    WaitingHoldLocks (serviceStart config db) := by
  intro task member
  cases member

/-! ### One write -/

section Writes

variable {before : ServiceSystem} {env : ServiceEnv} {task : ServiceTask} {actor : Actor}

/-- The database after a turn that runs a request on it. -/
theorem sharedStore_of_performs (before : ServiceSystem) (env : ServiceEnv) {op : SharedMemoOp}
    (performs : task.performs? = some (actor, op)) :
    (memoService.advance env task before.shared).1.sharedStore =
      (SharedStore.perform env.toStoreEnv actor op before.shared.sharedStore).2 := by
  have turn := ServiceTask.storeTurn env task before.shared
  change (ServiceTask.advance env task before.shared).1.sharedStore = _
  generalize (ServiceTask.advance env task before.shared).1.sharedStore = after at turn
  cases turn with
  | still task idle =>
      rw [performs] at idle
      cases idle
  | request task other op' performs' =>
      rw [performs] at performs'
      cases performs'
      rfl
  | purge => cases performs
  | snapshot origin id revision rest => cases performs

theorem update_writes {id : String} {base : Nat} {title body : String}
    (succeeds : Succeeds before env task actor (.update id base title body)) :
    ∃ replaced, storedContent before id = some (base, replaced) ∧
      contentAfter before env task id = some (base + 1, title, body) := by
  rcases succeeds with ⟨performs, reply, after, done⟩
  have stored := sharedStore_of_performs before env performs
  rw [done] at stored
  obtain ⟨detail, updated, _⟩ := Stateful.ok_reply.mp done
  rcases SharedStore.update_ok updated with ⟨row, present, _, rfl, _, written⟩
  refine ⟨(row.title, row.body), SharedDb.content_of_row? present, ?_⟩
  rw [contentAfter, stored, written]
  apply SharedStore.content_withContent
  rw [SharedStore.row?_withAutoSnapshot]
  exact present

theorem restore_writes {id : String} {hid : Nat}
    (succeeds : Succeeds before env task actor (.historyRestore id hid)) :
    ∃ revision replaced version, storedContent before id = some (revision, replaced) ∧
      contentAfter before env task id = some (revision + 1, version) := by
  rcases succeeds with ⟨performs, reply, after, done⟩
  have stored := sharedStore_of_performs before env performs
  rw [done] at stored
  obtain ⟨detail, restored, _⟩ := Stateful.ok_reply.mp done
  rcases SharedStore.historyRestore_ok restored with ⟨row, version, present, _, _, _, written⟩
  refine ⟨row.revision, (row.title, row.body), (version.title, version.body),
    SharedDb.content_of_row? present, ?_⟩
  rw [contentAfter, stored, written]
  exact SharedStore.content_withContent present

end Writes

/-! ### The protocol -/

/-- In every run in which no update is overtaken, memos are edited safely. -/
theorem edits_safely {config : Config} {db : SharedDb} {past : ServicePast} {state : ServiceSystem}
    (run : Run memoService (serviceStart config db) past state)
    (fair : ∀ entry ∈ past, NotOvertaken entry.1 entry.2) : EditsSafely past state where
  oneHolder := by
    intro service _ memoId one two first second
    have found := Table.get?_eq_some.mpr first
    rw [Table.get?_eq_some.mpr second] at found
    exact (Option.some.inj found).symm
  current := fun _ _ _ _ _ _ _ _ _ succeeds => update_writes succeeds
  unlocked := by
    intro before env task actor id base title body passed succeeds lock held _
    rcases List.append_of_mem passed with ⟨newer, older, split⟩
    rcases run.prior split with ⟨earlier, next, step⟩
    have waiting : WaitingHoldLocks before := earlier.stable (waiting_start config db)
      (fun _ _ _ => waiting_step) (fun entry member =>
        fair entry (by rw [split]; exact List.mem_append_right _ (List.mem_cons_of_mem _ member)))
    exact waiting task step.mem_of_turn actor id base title body succeeds.1 lock held
  restored := fun _ _ _ _ _ _ _ succeeds => restore_writes succeeds
  distinct := by
    intro newer between older before earlier env env' task task' actor actor' id base base' title
      title' body body' split later first filled
    rcases update_writes later with ⟨replaced, now, _⟩
    rcases update_writes first with ⟨replaced', _, written⟩
    rw [List.append_assoc, List.cons_append] at split
    have reached := (run.prior split).1
    have after {state : ServiceSystem} (step : Step memoService earlier (.turn env' task') state) :
        storedContent state id = some (base' + 1, title', body') := by
      rw [storedContent, step.shared_of_turn]
      exact written
    rcases List.eq_nil_or_concat between with rfl | ⟨rest, ⟨following, event⟩, rfl⟩
    · have stored := after reached.last
      rw [now] at stored
      cases stored
      exact Nat.lt_succ_self base'
    · -- the state right after the earlier update is the last of those in between
      rw [List.concat_eq_append, List.append_assoc, List.singleton_append] at reached
      have stored := after (reached.prior rfl).1.last
      have filledRest : ∀ entry ∈ rest, storedContent entry.1 id ≠ none := by
        intro entry member
        apply filled
        rw [List.concat_eq_append]
        exact List.mem_append_left _ member
      exact (content_between reached filledRest now stored).1
  seen := by
    intro newer between older before earlier env task event actor id base title body shown split
      succeeds filled had
    rcases update_writes succeeds with ⟨replaced, now, _⟩
    rw [List.append_assoc, List.cons_append] at split
    have reached := (run.prior split).1
    have same := (content_between reached filled now had).2 rfl
    rw [now, same]

/-! ### Two runs -/

/-- Alice takes the lock, and then sends an update that passes its lock check. -/
def aliceEdits : List (Choice ServiceEnv ServiceTask) :=
  [.arrive (.handleForMember aliceConnection 1 (.acquireLock "m")),
    .turn oneSecond 0, .turn oneSecond 0, .turn oneSecond 0,
    .turn oneSecond 0, .turn oneSecond 0, .turn oneSecond 0,
    .arrive (.handleForMember aliceConnection 2 (.update "m" 1 "t" "two")),
    .turn oneSecond 0, .turn oneSecond 0]

theorem edits_safely_aliceEdits : ∃ past state,
    Run memoService (serviceStart twoMembers oneMemo) past state ∧
      storedContent state "m" = some (2, "t", "two") ∧ EditsSafely past state :=
  have run := Run.start.execute (aliceEdits ++ [.turn oneSecond 0]) rfl
  ⟨_, _, run, rfl, edits_safely run (by decide)⟩

/-- Before Alice's update runs on the database, the host frees the lock and Bob takes it. -/
def bobOvertakes : List (Choice ServiceEnv ServiceTask) :=
  [.arrive (.handleForHost (.forceUnlock "m")), .turn oneSecond 1, .turn oneSecond 1,
    .arrive (.handleForMember bobConnection 1 (.acquireLock "m")),
    .turn oneSecond 2, .turn oneSecond 2, .turn oneSecond 2]

/-- The update succeeds although Bob holds the lock. -/
theorem edits_bobOvertakes : ∃ past state,
    Run memoService (serviceStart twoMembers oneMemo) past state ∧ ¬ EditsSafely past state := by
  refine ⟨_, _, Run.start.execute (aliceEdits ++ bobOvertakes ++ [.turn oneSecond 0]) rfl, ?_⟩
  intro safe
  have own := safe.unlocked _ oneSecond _ _ "m" 1 "t" "two" List.mem_cons_self
    ⟨rfl, _, _, rfl⟩ _ rfl rfl
  exact absurd own (by decide)

end PeerCove
