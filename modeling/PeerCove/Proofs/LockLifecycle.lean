/-
Module: PeerCove.Proofs.LockLifecycle
Layer: Proofs
Purpose: The ends of edit locks over all runs of the memo service: each is followed once by a version
  of the memo, if it has changed under the lock, and by an announcement.
Trusted boundary: none
Main exports: LocksSettled, EndsOpenly, locks_settled
-/
import PeerCove.Proofs.LockDuties

namespace PeerCove

open Tasks

namespace ServiceTask

/-- A holder takes its lock again, and the memo was read with another revision than the lock has. -/
def rebases (service : MemoService) : ServiceTask → Bool
  | .stored ⟨_, actor, .acquireLock id⟩ (.memo memo) _ _ _ =>
      memo.canEdit && (service.locks.get? id).any (fun lock =>
        lock.key = actor.key && lock.revisionAtAcquire ≠ memo.revision)
  | _ => false

end ServiceTask

/-- The condition on a step: locks that have expired are dropped by the periodic job only, a memo is
put in the trash without a lock, a holder does not take its lock again after a change of the memo,
and no request is cancelled that still has to announce the end of a lock. -/
def EndsOpenly (state : ServiceSystem) : Event ServiceEnv ServiceTask → Prop
  | .turn env task => task.forgets env state.shared = false ∧ task.rebases state.shared = false
  | .arrive _ => True
  | .cancel task => LockDuty.ofTask task = []

instance (state : ServiceSystem) (event : Event ServiceEnv ServiceTask) :
    Decidable (EndsOpenly state event) :=
  match event with
  | .turn env task => inferInstanceAs (Decidable
      (task.forgets env state.shared = false ∧ task.rebases state.shared = false))
  | .arrive _ => inferInstanceAs (Decidable True)
  | .cancel task => inferInstanceAs (Decidable (LockDuty.ofTask task = []))

/-- The key of the holder of a memo's lock. -/
def holderKey (state : ServiceSystem) (id : String) : Option String :=
  (state.shared.locks.get? id).map LockInfo.key

/-- The lock was taken in the step from a state, and has been held since. -/
def HeldSince (past : ServicePast) (state : ServiceSystem) (id key : String)
    (taken : ServiceSystem) : Prop :=
  ∃ newer event older, past = newer ++ (taken, event) :: older ∧ holderKey taken id ≠ some key ∧
    (∀ entry ∈ newer, holderKey entry.1 id = some key) ∧ holderKey state id = some key

/-- What holds of the ends of edit locks in a run. -/
structure LocksSettled (past : ServicePast) (state : ServiceSystem) : Prop where
  /-- Of what the ends of locks call for, everything has been done once or is still to be done, and
  nothing else has been done. -/
  duties : (inTurns (fun _ task _ => task.lockDone) past ++
      state.shared.outbox.flatMap LockDuty.ofSent ++ state.tasks.flatMap LockDuty.ofTask).Perm
    (inTurns ServiceTask.lockDue past)
  /-- A version of the memo is stored when its revision is not the one of the lock. -/
  versions : ∀ (closing : ServiceSystem) (env : ServiceEnv) (origin : Origin) (id : String)
    (since : Nat) (rest : List Effect) (row : Row),
    (closing, .turn env (.effects origin (.snapshotAfterUnlock id since :: rest))) ∈ past →
    closing.shared.sharedStore.row? id = some row →
    (memoService.advance env (.effects origin (.snapshotAfterUnlock id since :: rest))
        closing.shared).1.sharedStore =
      if row.revision ≠ since then
        SharedStore.withSnapshot env.now "close" row closing.shared.sharedStore
      else closing.shared.sharedStore
  /-- A holder that takes its lock again keeps the revision of the lock. -/
  renewed : ∀ (before : ServiceSystem) (env : ServiceEnv) (task : ServiceTask) (id : String)
    (earlier later : LockInfo), (before, .turn env task) ∈ past →
    before.shared.locks.get? id = some earlier →
    (memoService.advance env task before.shared).1.locks.get? id = some later →
    earlier.key = later.key → later.revisionAtAcquire = earlier.revisionAtAcquire
  /-- Where the memo has changed between the first taking of the lock and its end, the version is
  stored. -/
  changed : ∀ (newer between older : ServicePast) (closing ended taken : ServiceSystem)
    (env : ServiceEnv) (event : Event ServiceEnv ServiceTask) (origin : Origin)
    (rest : List Effect) (id key : String) (lock : LockInfo) (row : Row) (first last : Nat)
    (content content' : String × String),
    past = newer ++ (closing, .turn env (.effects origin
        (.snapshotAfterUnlock id lock.revisionAtAcquire :: rest))) :: between ++
      (ended, event) :: older →
    CreatedOnce past state id → HeldSince older ended id key taken →
    ended.shared.locks.get? id = some lock →
    storedContent taken id = some (first, content) →
    storedContent ended id = some (last, content') → first ≠ last →
    closing.shared.sharedStore.row? id = some row →
    (memoService.advance env (.effects origin
        (.snapshotAfterUnlock id lock.revisionAtAcquire :: rest)) closing.shared).1.sharedStore =
      SharedStore.withSnapshot env.now "close" row closing.shared.sharedStore

/-! ### Requests that take a lock -/

namespace ServiceTask

/-- The memo that a request has read to take its lock, and the revision it had. -/
def acquires? : ServiceTask → Option (String × Nat)
  | .stored ⟨_, _, .acquireLock id⟩ (.memo memo) _ _ _ => some (id, memo.revision)
  | _ => none

theorem acquires?_of_working {task : ServiceTask} (idle : task.working = false) :
    task.acquires? = none := by
  cases task with
  | stored request reply merges cells asOf => cases idle
  | _ => rfl

/-- A request reads the memo in the section before the one that takes the lock. -/
theorem spawned_acquires {env : ServiceEnv} {service : MemoService} {task next : ServiceTask}
    {id : String} {revision : Nat} (spawned : next ∈ (advance env task service).2)
    (acquires : next.acquires? = some (id, revision)) :
    ∃ content, service.sharedStore.content id = some (revision, content) := by
  have works : next.working = true := by
    cases idle : next.working with
    | true => rfl
    | false =>
        rw [acquires?_of_working idle] at acquires
        cases acquires
  cases follows spawned works with
  | stored task request reply merges cells performs done =>
      rcases request with ⟨origin, actor, op⟩
      unfold acquires? at acquires
      split at acquires
      · rename_i same
        cases same
        cases acquires
        rcases Stateful.ok_reply.mp done with ⟨detail, read, same⟩
        cases same
        rcases SharedStore.get_ok.mp read with ⟨row, present, _, rfl, _⟩
        exact ⟨_, SharedDb.content_of_row? present⟩
      · cases acquires
  | _ => cases acquires

/-- What is left of a cancelled request takes no lock. -/
theorem cancelled_acquires {task next : ServiceTask} {rest : List ServiceTask}
    (left : cancelled task = some rest) (member : next ∈ rest) : next.acquires? = none := by
  unfold cancelled at left
  split at left
  · cases left
    cases member
  · cases left
    split at member
    · rw [List.mem_singleton.mp member]
      rfl
    · cases member
  · cases left
    rw [List.mem_singleton.mp member]
    rfl
  · cases left
    cases member
  · cases left
    rw [List.mem_singleton.mp member]
    rfl
  · cases left
    cases member
  · cases left

/-- What is left of a cancelled request without duties has none. -/
theorem cancelled_duties {task : ServiceTask} {rest : List ServiceTask}
    (left : cancelled task = some rest) (free : LockDuty.ofTask task = []) :
    rest.flatMap LockDuty.ofTask = [] := by
  unfold cancelled at left
  split at left
  · cases left
    rfl
  · cases left
    split
    · rfl
    · rfl
  · cases left
    rfl
  · cases left
    rfl
  · cases free
  · cases left
    rfl
  · cases left

theorem arrives_duties {task : ServiceTask} (allowed : task.arrives = true) :
    LockDuty.ofTask task = [] := by
  cases task with
  | effects origin rest => cases allowed
  | changedSend sent id config holder targets => cases allowed
  | _ => rfl

theorem arrives_acquires {task : ServiceTask} (allowed : task.arrives = true) :
    task.acquires? = none := by
  cases task with
  | stored request reply merges cells asOf => cases allowed
  | _ => rfl

end ServiceTask

/-! ### Runs -/

section Runs

variable {config : Config} {db : SharedDb} {past : ServicePast} {state next : ServiceSystem}
  {event : Event ServiceEnv ServiceTask}

/-- A revision the memo had in an earlier state. -/
def Read (past : ServicePast) (id : String) (revision : Nat) : Prop :=
  ∃ entry ∈ past, ∃ content, storedContent entry.1 id = some (revision, content)

theorem Read.cons {id : String} {revision : Nat} (read : Read past id revision)
    (entry : ServiceSystem × Event ServiceEnv ServiceTask) : Read (entry :: past) id revision := by
  rcases read with ⟨earlier, member, content, stored⟩
  exact ⟨earlier, List.mem_cons_of_mem _ member, content, stored⟩

/-- Locks, and requests that take one, carry a revision that their memo had. -/
structure RevisionsRead (past : ServicePast) (state : ServiceSystem) : Prop where
  locks : ∀ id lock, state.shared.locks.get? id = some lock → Read past id lock.revisionAtAcquire
  tasks : ∀ task ∈ state.tasks, ∀ id revision, task.acquires? = some (id, revision) →
    Read past id revision

theorem read_step (reads : RevisionsRead past state) (step : Step memoService state event next) :
    RevisionsRead ((state, event) :: past) next := by
  cases step with
  | arrive task allowed =>
      refine ⟨fun id lock held => (reads.locks id lock held).cons _, ?_⟩
      intro other member id revision acquires
      rcases List.mem_append.mp member with member | member
      · exact (reads.tasks other member id revision acquires).cons _
      · rw [List.mem_singleton.mp member, ServiceTask.arrives_acquires allowed] at acquires
        cases acquires
  | turn env task before after there =>
      have old (other : ServiceTask) (member : other ∈ before ++ task :: after) (id : String)
          (revision : Nat) (acquires : other.acquires? = some (id, revision)) :
          Read ((state, .turn env task) :: past) id revision := by
        rw [← there] at member
        exact (reads.tasks other member id revision acquires).cons _
      refine ⟨?_, ?_⟩
      · intro id lock held
        rcases ServiceTask.lock_turn held with ⟨earlier, had, _, same⟩ | takes
        · rw [← same]
          exact (reads.locks id earlier had).cons _
        · cases takes with
          | acquire origin actor memo merges cells asOf editable taken =>
              exact old _ (List.mem_append_right before List.mem_cons_self) id memo.revision rfl
      · intro other member id revision acquires
        rcases List.mem_append.mp member with member | member
        · rcases List.mem_append.mp member with member | member
          · exact old other (List.mem_append_left _ member) id revision acquires
          · rcases ServiceTask.spawned_acquires member acquires with ⟨content, stored⟩
            exact ⟨_, List.mem_cons_self, content, stored⟩
        · exact old other (List.mem_append_right _ (List.mem_cons_of_mem _ member)) id revision
            acquires
  | cancel task rest before after there left =>
      refine ⟨fun id lock held => (reads.locks id lock held).cons _, ?_⟩
      intro other member id revision acquires
      have old (member : other ∈ before ++ task :: after) :
          Read ((state, .cancel task) :: past) id revision := by
        rw [← there] at member
        exact (reads.tasks other member id revision acquires).cons _
      rcases List.mem_append.mp member with member | member
      · rcases List.mem_append.mp member with member | member
        · exact old (List.mem_append_left _ member)
        · rw [ServiceTask.cancelled_acquires left member] at acquires
          cases acquires
      · exact old (List.mem_append_right _ (List.mem_cons_of_mem _ member))

theorem revisions_read (run : Run memoService (serviceStart config db) past state) :
    RevisionsRead past state := by
  induction run with
  | start =>
      refine ⟨?_, ?_⟩
      · intro id lock held
        cases held
      · intro task member
        cases member
  | step run step ih => exact read_step ih step

/-- A holder keeps the revision of its lock. -/
theorem renewed_turn {before : ServiceSystem} {env : ServiceEnv} {task : ServiceTask} {id : String}
    {earlier later : LockInfo} (kept : task.rebases before.shared = false)
    (had : before.shared.locks.get? id = some earlier)
    (held : (memoService.advance env task before.shared).1.locks.get? id = some later)
    (own : earlier.key = later.key) : later.revisionAtAcquire = earlier.revisionAtAcquire := by
  rcases ServiceTask.lock_turn held with ⟨other, had', _, same⟩ | takes
  · rw [had] at had'
    cases had'
    exact same.symm
  · cases takes with
    | acquire origin actor memo merges cells asOf editable taken =>
        have mine : earlier.key = actor.key := own
        have equal : earlier.revisionAtAcquire = memo.revision := by
          simpa [ServiceTask.rebases, editable, had, mine] using kept
        exact equal.symm

/-- While a lock has the same holder, its revision is one that the memo had when it was taken, or
before. -/
theorem held_revision (run : Run memoService (serviceStart config db) past state)
    (fair : ∀ entry ∈ past, EndsOpenly entry.1 entry.2) {newer older : ServicePast}
    {taken : ServiceSystem} (split : past = newer ++ (taken, event) :: older) {id key : String}
    (holds : ∀ entry ∈ newer, holderKey entry.1 id = some key) {lock : LockInfo}
    (held : state.shared.locks.get? id = some lock) (own : lock.key = key) :
    Read ((taken, event) :: older) id lock.revisionAtAcquire := by
  induction newer generalizing past state lock with
  | nil =>
      rw [split, List.nil_append] at run
      exact (revisions_read run).locks id lock held
  | cons entry newer ih =>
      rcases entry with ⟨before, last⟩
      rw [split, List.cons_append] at run fair
      have reached := (run.prior (List.nil_append _).symm).1
      rcases Option.map_eq_some_iff.mp (holds _ List.mem_cons_self) with ⟨earlier, had, same⟩
      have read := ih reached (fun entry member => fair entry (List.mem_cons_of_mem _ member)) rfl
        (fun entry member => holds entry (List.mem_cons_of_mem _ member)) had same
      have kept := fair _ List.mem_cons_self
      have unchanged : lock.revisionAtAcquire = earlier.revisionAtAcquire := by
        cases run.last with
        | arrive task allowed =>
            rw [show before.shared.locks.get? id = some lock from held] at had
            cases had
            rfl
        | turn env task ahead behind there =>
            exact renewed_turn kept.2 had held (same.trans own.symm)
        | cancel task rest ahead behind there left =>
            rw [show before.shared.locks.get? id = some lock from held] at had
            cases had
            rfl
      rw [unchanged]
      exact read

/-- The version after the end of a lock, as the database stores it. -/
theorem snapshot_turn {closing : ServiceSystem} {env : ServiceEnv} {origin : Origin} {id : String}
    {since : Nat} {rest : List Effect} {row : Row}
    (present : closing.shared.sharedStore.row? id = some row) :
    (memoService.advance env (.effects origin (.snapshotAfterUnlock id since :: rest))
        closing.shared).1.sharedStore =
      if row.revision ≠ since then
        SharedStore.withSnapshot env.now "close" row closing.shared.sharedStore
      else closing.shared.sharedStore :=
  congrArg Prod.snd (SharedStore.snapshotIfRevisionChanged_run present)

/-- In every run in which locks end openly, their ends are settled. -/
theorem locks_settled (run : Run memoService (serviceStart config db) past state)
    (fair : ∀ entry ∈ past, EndsOpenly entry.1 entry.2) : LocksSettled past state where
  duties := by
    have settled := run.settled LockDuty.ofTask ServiceTask.lockDue
      (fun _ task _ => task.lockDone ++ task.sends.flatMap LockDuty.ofSent) rfl
      (fun task => ServiceTask.arrives_duties)
      (fun state env task kept => ServiceTask.balanced task kept.1)
      (fun state task rest kept left => by
        rw [kept]
        exact ServiceTask.cancelled_duties left kept) fair
    have sent : (state.shared.outbox.flatMap LockDuty.ofSent).Perm
        (inTurns (fun _ task _ => task.sends.flatMap LockDuty.ofSent) past) := by
      rw [outbox_run run, inTurns_flatMap]
      exact inTurns_reverse _ past
    refine List.Perm.trans ?_ settled
    apply List.Perm.append_right
    exact (List.Perm.append_left _ sent).trans (inTurns_append _ _ past).symm
  versions := fun _ _ _ _ _ _ _ _ present => snapshot_turn present
  renewed := fun _ _ _ _ _ _ passed had held own => renewed_turn (fair _ passed).2 had held own
  changed := by
    intro newer between older closing ended taken env event origin rest id key lock row first last
      content content' split fresh since held wasFirst wasLast differ present
    rcases since with ⟨later, taking, before, splitOlder, _, holds, own⟩
    rw [List.append_assoc, List.cons_append] at split
    have toClosing := (run.prior split).1
    have toEnded := (toClosing.prior rfl).1
    have toTaken := (toEnded.prior splitOlder).1
    have freshClosing := fresh.prior split
    have freshEnded := freshClosing.prior rfl
    have freshTaken := freshEnded.prior splitOlder
    have mine : lock.key = key := by
      rw [holderKey, held] at own
      exact Option.some.inj own
    have fairOlder : ∀ entry ∈ older, EndsOpenly entry.1 entry.2 := by
      intro entry member
      apply fair
      rw [split]
      simp [member]
    have read := held_revision toEnded fairOlder splitOlder holds held mine
    have notAfter : lock.revisionAtAcquire ≤ first := by
      rcases read with ⟨entry, member, shown, stored⟩
      rcases List.mem_cons.mp member with rfl | member
      · rw [wasFirst] at stored
        cases stored
        exact Nat.le_refl _
      · exact revision_le toTaken freshTaken wasFirst member stored
    have takenThere : (taken, taking) ∈ older := by
      rw [splitOlder]
      exact List.mem_append_right _ List.mem_cons_self
    have grown : first ≤ last := revision_le toEnded freshEnded wasLast takenThere wasFirst
    have stays : last ≤ row.revision :=
      revision_le toClosing freshClosing (SharedDb.content_of_row? present)
        (List.mem_append_right _ List.mem_cons_self) wasLast
    have moved : row.revision ≠ lock.revisionAtAcquire := by omega
    rw [snapshot_turn present, if_pos moved]

end Runs

/-! ### Two runs -/

/-- Alice takes the lock, saves and releases it, while Bob is connected. -/
def aliceReleases : List (Choice ServiceEnv ServiceTask) :=
  [.arrive (.connect bobIp ["shared_memo"]), .turn oneSecond 0,
    .arrive (.handleForMember aliceConnection 1 (.acquireLock "m"))] ++ turns 7 oneSecond ++
  [.arrive (.handleForMember aliceConnection 2 (.update "m" 1 "t" "two"))] ++
    turns 5 oneSecond ++ [.turn oneSecond 1, .turn oneSecond 1] ++ turns 5 oneSecond ++
  [.arrive (.handleForMember aliceConnection 3 (.releaseLock "m"))] ++ turns 7 oneSecond

theorem locks_settled_aliceReleases : ∃ past state,
    Run memoService (serviceStart twoMembers oneMemo) past state ∧ state.tasks = [] ∧
      (state.shared.sharedStore.latestHistory "m").map HistoryRow.kind = some "close" ∧
      LocksSettled past state :=
  have run := Run.start.execute aliceReleases rfl
  ⟨_, _, run, rfl, by decide, locks_settled run (by decide)⟩

/-- Three minutes later. -/
def threeMinutes : ServiceEnv :=
  { oneSecond with now := 181000, instant := 181000 }

/-- Alice takes the lock, and Bob lists the memos when it has expired. -/
def bobLists : List (Choice ServiceEnv ServiceTask) :=
  [.arrive (.handleForMember aliceConnection 1 (.acquireLock "m"))] ++ turns 6 oneSecond ++
  [.arrive (.handleForMember bobConnection 1 (.list {}))] ++ turns 4 threeMinutes

/-- The lock has ended, and neither is it announced nor will it be. -/
theorem locks_bobLists : ∃ past state,
    Run memoService (serviceStart twoMembers oneMemo) past state ∧ state.tasks = [] ∧
      ¬ LocksSettled past state := by
  refine ⟨_, _, Run.start.execute bobLists rfl, rfl, ?_⟩
  intro settled
  exact absurd settled.duties.length_eq (by decide)

end PeerCove
