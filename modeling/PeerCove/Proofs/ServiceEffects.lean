/-
Module: PeerCove.Proofs.ServiceEffects
Layer: Proofs
Purpose: The effects that tasks carry: which turns add versions, messages or announcements that a lock
  has ended, and that all others add none of these.
Trusted boundary: none
Main exports: ServiceTask.carries, Effect.plain, Plain, ServiceTask.speaks, plain_turn
-/
import PeerCove.Proofs.ServiceSteps

namespace PeerCove

/-- The memo an event announces to be without a lock. -/
def SharedMemoEvent.unlocked? : SharedMemoEvent → Option String
  | .lock id none => some id
  | _ => none

/-- An effect that neither stores a version, nor sends a message that is made, nor announces the end
of a lock. -/
def Effect.plain : Effect → Bool
  | .snapshotAfterUnlock _ _ => false
  | .send _ => false
  | .announce event _ => event.unlocked?.isNone
  | _ => true

namespace ServiceTask

/-- The effects that a task has before it. -/
def carries : ServiceTask → List Effect
  | .effects _ rest => rest
  | .changedSend sent _ _ _ _ => [.send sent]
  | _ => []

/-- Tasks that carry plain effects only. -/
def Plain (tasks : List ServiceTask) : Prop :=
  ∀ effect ∈ tasks.flatMap carries, effect.plain = true

/-- Tasks after whose turns there may be other effects. -/
def speaks : ServiceTask → Bool
  | .handle ⟨_, _, .releaseLock _⟩ => true
  | .handle ⟨_, _, .forceUnlock _⟩ => true
  | .effects _ _ => true
  | .sweepExpiredLocks => true
  | .releaseLocks _ => true
  | .changedRead _ _ _ _ _ => true
  | .foldersRead _ => true
  | .noticeConfig _ _ => true
  | _ => false

section Plain

variable {origin : Origin} {rest : List Effect} {one two : List ServiceTask}

theorem plain_nil : Plain [] := by
  intro effect member
  cases member

theorem plain_single {task : ServiceTask} (plain : ∀ effect ∈ task.carries, effect.plain = true) :
    Plain [task] := by
  intro effect member
  rw [List.flatMap_singleton] at member
  exact plain effect member

/-- A task that carries no effect at all. -/
theorem plain_task {task : ServiceTask} (nothing : task.carries = []) : Plain [task] := by
  apply plain_single
  intro effect member
  rw [nothing] at member
  cases member

theorem Plain.append (first : Plain one) (second : Plain two) : Plain (one ++ two) := by
  intro effect member
  rw [List.flatMap_append] at member
  rcases List.mem_append.mp member with member | member
  · exact first effect member
  · exact second effect member

theorem plain_ite {condition : Prop} [Decidable condition] (first : Plain one)
    (second : Plain two) : Plain (if condition then one else two) := by
  split
  · exact first
  · exact second

theorem plain_effects (plain : ∀ effect ∈ rest, effect.plain = true) :
    Plain [.effects origin rest] :=
  plain_single plain

theorem carries_andThen (origin : Origin) (rest : List Effect) :
    (andThen origin rest).flatMap carries = rest := by
  cases rest with
  | nil => rfl
  | cons effect rest => exact List.append_nil _

theorem plain_andThen (plain : ∀ effect ∈ rest, effect.plain = true) :
    Plain (andThen origin rest) := by
  intro effect member
  rw [carries_andThen] at member
  exact plain effect member

theorem plain_nextTarget (id : String) (config : Config) (holder : Option String)
    (targets : List Connection) : Plain (nextTarget id config holder targets) := by
  cases targets with
  | nil => exact plain_nil
  | cons target targets => exact plain_task rfl

/-! ### What operations announce -/

theorem plain_announceSchedule (op : ScheduleOp) (reply : ScheduleReply) :
    ∀ effect ∈ announceSchedule op reply, effect.plain = true := by
  unfold announceSchedule
  split
  all_goals simp [Effect.plain, SharedMemoEvent.unlocked?]

theorem plain_announceCells (sheetId : String) (cells : List SheetCell) :
    ∀ effect ∈ announceCells sheetId cells, effect.plain = true := by
  unfold announceCells
  split
  · simp
  · simp [Effect.plain, SharedMemoEvent.unlocked?]

theorem plain_announceSheet (merges : List SheetMerge) (cells : List SheetCell) (op : SheetOp)
    (reply : SheetReply) :
    ∀ effect ∈ announceSheet merges cells op reply, effect.plain = true := by
  have bump : Effect.bump.plain = true := rfl
  unfold announceSheet
  split
  case h_5 sheetId written applied conflicts =>
    split
    · simpa [bump, or_imp, forall_and] using plain_announceCells _ cells
    · simp
  case h_8 sheetId merge answer =>
    simpa [bump, or_imp, forall_and, Effect.plain, SharedMemoEvent.unlocked?] using
      plain_announceCells _ cells
  all_goals simp [Effect.plain, SharedMemoEvent.unlocked?]

theorem plain_announcements (actor : Actor) (merges : List SheetMerge) (cells : List SheetCell)
    (asOf : Nat) (op : SharedMemoOp) (reply : SharedMemoReply) :
    ∀ effect ∈ announcements actor merges cells asOf op reply, effect.plain = true := by
  unfold announcements
  split
  case h_14 op reply => exact plain_announceSchedule op reply
  case h_15 op reply => exact plain_announceSheet merges cells op reply
  all_goals simp [Effect.plain, SharedMemoEvent.unlocked?, Effect.broadcastLock,
    Effect.broadcastRemoved]

theorem plain_conclude (request : Request) (reply : SharedMemoReply) (merges : List SheetMerge)
    (cells : List SheetCell) (asOf : Nat) :
    Plain (conclude request reply merges cells asOf) := by
  apply plain_effects
  intro effect member
  rcases List.mem_append.mp member with member | member
  · exact plain_announcements _ _ _ _ _ _ effect member
  · rw [List.mem_singleton.mp member]
    rfl

theorem plain_answer (request : Request) (reply : Except String SharedMemoReply) (asOf : Nat) :
    Plain (answer request reply asOf) := by
  apply plain_effects
  intro effect member
  rw [List.mem_singleton.mp member]
  rfl

theorem plain_withGroupNames (request : Request) (memo : SharedMemoDetail) (asOf : Nat) :
    Plain (withGroupNames request memo asOf) :=
  plain_ite (plain_conclude _ _ _ _ _) (plain_task rfl)

theorem plain_afterStore (request : Request) (asOf : Nat)
    (outcome : Except String (SharedMemoReply × List SheetMerge × List SheetCell)) :
    Plain (afterStore request asOf outcome) := by
  cases outcome with
  | ok result => exact plain_task rfl
  | error error => exact plain_answer _ _ _

theorem plain_afterCheck (request : Request) (asOf : Nat) (checked : Except String Unit) :
    Plain (afterCheck request asOf checked) := by
  cases checked with
  | ok _ => exact plain_task rfl
  | error error => exact plain_answer _ _ _

theorem plain_runStored (env : ServiceEnv) (request : Request) (reply : SharedMemoReply)
    (merges : List SheetMerge) (cells : List SheetCell) (asOf : Nat) (service : MemoService) :
    Plain (runStored env request reply merges cells asOf service).2 := by
  unfold runStored
  split
  · exact plain_answer _ _ _
  · exact plain_withGroupNames _ _ _
  · exact plain_withGroupNames _ _ _
  · exact plain_withGroupNames _ _ _
  · exact plain_withGroupNames _ _ _
  · dsimp only [afterAcquire]
    split
    · split
      · exact plain_withGroupNames _ _ _
      · exact plain_answer _ _ _
    · exact plain_answer _ _ _
  · exact plain_conclude _ _ _ _ _
  · exact plain_answer _ _ _
  · exact plain_conclude _ _ _ _ _

theorem plain_runPresence (env : ServiceEnv) (request : Request) (sheetId : String) (row col : Nat)
    (service : MemoService) : Plain (runPresence env request sheetId row col service).2 := by
  apply plain_effects
  split
  · simp [Effect.plain]
  · simp [Effect.plain]

theorem plain_layoutEvent (sheetId : String) (db : SharedDb) :
    ∀ effect ∈ layoutEvent sheetId db, effect.plain = true := by
  unfold layoutEvent
  split
  · simp [Effect.plain, SharedMemoEvent.unlocked?]
  · simp

theorem plain_forMember (connection : Connection) (seq : Nat) (op : SharedMemoOp) (asOf : Nat)
    (known : Except String Actor) : Plain (forMember connection seq op asOf known) := by
  cases known with
  | error error => exact plain_effects (by simp [Effect.plain])
  | ok actor => exact plain_task rfl

theorem plain_releaseFor (known : Except String Actor) : Plain (releaseFor known) := by
  cases known with
  | error error => exact plain_nil
  | ok actor => exact plain_task rfl

theorem plain_runHandle {env : ServiceEnv} {request : Request} {service : MemoService}
    (quiet : (ServiceTask.handle request).speaks = false) :
    Plain (runHandle env request service).2 := by
  cases begins : beginsWithStore request.op with
  | true =>
      rw [runHandle_store request begins]
      exact plain_afterStore _ _ _
  | false =>
      rcases request with ⟨origin, actor, op⟩
      cases op with
      | update id base title body => exact plain_afterCheck _ _ _
      | historyRestore id hid => exact plain_afterCheck _ _ _
      | releaseLock id => cases quiet
      | forceUnlock id => cases quiet
      | permGroupList => exact plain_answer _ _ _
      | sheet sheet =>
          cases sheet with
          | presence sheetId row col => exact plain_runPresence _ _ _ _ _ _
          | _ => cases begins
      | _ => cases begins

/-- The tasks that follow any other turn carry plain effects only. -/
theorem plain_turn {env : ServiceEnv} {task : ServiceTask} {service : MemoService}
    (quiet : task.speaks = false) : Plain (advance env task service).2 := by
  cases task with
  | handle request => exact plain_runHandle quiet
  | store request => exact plain_afterStore _ _ _
  | stored request reply merges cells asOf => exact plain_runStored _ _ _ _ _ _ _
  | refreshGroupNames request memo asOf => exact plain_conclude _ _ _ _ _
  | handleForMember connection seq op => exact plain_forMember _ _ _ _ _
  | releaseLocksForIp ip => exact plain_releaseFor _
  | disconnect connection => exact plain_ite (plain_task rfl) plain_nil
  | sweepSheetPresence =>
      refine plain_ite plain_nil (plain_andThen ?_)
      intro effect member
      rcases List.mem_append.mp member with member | member
      · rcases List.mem_map.mp member with ⟨sheetId, _, rfl⟩
        rfl
      · rw [List.mem_singleton.mp member]
        rfl
  | groupsChanged =>
      refine plain_andThen ?_
      intro effect member
      rcases List.mem_flatMap.mp member with ⟨id, _, member⟩
      rcases List.mem_cons.mp member with rfl | member
      · rfl
      · rw [List.mem_singleton.mp member]
        rfl
  | watchGroups config => exact plain_ite plain_nil (plain_task rfl)
  | changedTargets id => exact plain_ite plain_nil (plain_task rfl)
  | changedHolder id config targets => exact plain_nextTarget _ _ _ _
  | changedSend sent id config holder targets => exact plain_nextTarget _ _ _ _
  | foldersTargets => exact plain_ite plain_nil (plain_task rfl)
  | noticeTargets notice => exact plain_ite plain_nil (plain_task rfl)
  | tick => exact plain_task rfl
  | handleForHost op => exact plain_task rfl
  | changedConfig id targets => exact plain_task rfl
  | connect ip capabilities => exact plain_nil
  | writeConfig config => exact plain_nil
  | maintain => exact plain_nil
  | abandoned actor op => exact plain_nil
  | effects origin rest => cases quiet
  | sweepExpiredLocks => cases quiet
  | releaseLocks key => cases quiet
  | changedRead id config holder target targets => cases quiet
  | foldersRead targets => cases quiet
  | noticeConfig notice targets => cases quiet

end Plain

end ServiceTask

end PeerCove
