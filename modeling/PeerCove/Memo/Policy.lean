/-
Module: PeerCove.Memo.Policy
Layer: Specification
Purpose: What a request requires of its actor, in terms of the permission entries alone, and what a
  reply may show.
Trusted boundary: none
Main exports: Sees, Edits, Manages, Permitted, SharedMemoReply.Confined
-/
import PeerCove.Memo.Requests

namespace PeerCove

/-- The host, the admins and the owner decide about a memo. -/
def Manages (actor : Actor) (row : Row) : Prop :=
  actor.memberId = none ∨ actor.admin = true ∨ row.ownerId = actor.ownerId

/-- A memo is seen by those who manage it, and outside the trash by those with some level. -/
def Sees (actor : Actor) (row : Row) (ctx : PermContext) : Prop :=
  Manages actor row ∨
    (row.deletedAt = none ∧ ∃ level, row.Effective actor ctx level ∧ level ≠ .none)

/-- A memo outside the trash is edited by the host, its owner and those with the level for it. -/
def Edits (actor : Actor) (row : Row) (ctx : PermContext) : Prop :=
  row.deletedAt = none ∧
    (actor.memberId = none ∨ row.ownerId = actor.ownerId ∨ row.Effective actor ctx .editor)

/-- The host or an admin. -/
def Administers (actor : Actor) : Prop :=
  actor.memberId = none ∨ actor.admin = true

/-- The memo exists and satisfies a condition on its columns and permission entries. -/
def MemoWith (db : SharedDb) (id : String) (holds : Row → PermContext → Prop) : Prop :=
  ∃ row, db.row? id = some row ∧ holds row (db.permContext id)

/-- What each request requires.  Sheets and the schedule have no permission entries: everyone adds
to them, and what has an owner is renamed and deleted by the owner or an administrator. -/
def Permitted (actor : Actor) (db : SharedDb) : SharedMemoOp → Prop
  | .get id | .acquireLock id | .backlinks id | .historyList id | .historyGet id _
  | .historyDiff id _ _ | .commentList id | .commentAdd id _ => MemoWith db id (Sees actor)
  | .update id _ _ _ | .historyRestore id _ | .saveVersion id => MemoWith db id (Edits actor)
  | .trash id | .restore id | .setPerms id _ _ _ =>
      MemoWith db id (fun row _ => Manages actor row)
  | .deleteForever id =>
      MemoWith db id (fun row _ => Manages actor row ∧ row.deletedAt.isSome = true)
  | .commentDelete id commentId =>
      MemoWith db id (fun row ctx => Sees actor row ctx ∧
        ∃ comment, db.memoComments.get? commentId = some comment ∧ comment.memoId = id ∧
          (comment.authorId = actor.ownerId ∨ Manages actor row))
  | .folderCreate _ | .folderRename _ _ | .folderDelete _ | .setLimits _ => Administers actor
  | .schedule (.update id _ _ _ _ _ _ _) | .schedule (.delete id) =>
      ∃ row, db.scheduleEvents.get? id = some row ∧
        (Administers actor ∨ row.ownerId = actor.ownerId)
  | .sheet (.rename id _) | .sheet (.delete id) =>
      ∃ row, db.sheets.get? id = some row ∧ (Administers actor ∨ row.ownerId = actor.ownerId)
  | _ => True

/-- Listings, titles and links show memos that the actor sees. -/
def SharedMemoReply.Confined (actor : Actor) (db : SharedDb) : SharedMemoReply → Prop
  | .memos listed _ => ∀ shown ∈ listed, MemoWith db shown.id (Sees actor)
  | .memo shown => MemoWith db shown.id (Sees actor)
  | .titles map => ∀ entry ∈ map, MemoWith db entry.2 (Sees actor)
  | _ => True

/-! ### The code's decisions -/

section Decisions

variable {actor : Actor} {row : Row} {ctx : PermContext}

theorem administers_iff : Administers actor ↔ actor.isAdmin = true := by
  simp [Administers, Actor.isAdmin, Actor.isHost]

theorem manages_iff : Manages actor row ↔ row.canManage actor = true := by
  simp [Manages, Row.canManage, Actor.isHost, or_assoc]

theorem sees_iff : Sees actor row ctx ↔ row.visibleTo actor ctx = true := by
  rw [Row.visibleTo_iff, Sees, manages_iff]
  refine or_congr_right (and_congr_right (fun _ => ?_))
  constructor
  · intro h
    obtain ⟨level, effective, some⟩ := h
    rw [Row.effectiveLevel_iff.mpr effective]
    exact some
  · intro some
    exact ⟨_, Row.effectiveLevel_iff.mp rfl, some⟩

theorem edits_iff : Edits actor row ctx ↔ row.canEdit actor ctx = true := by
  rw [Row.canEdit_iff, Edits, Row.effectiveLevel_iff]
  simp [Actor.isHost]

theorem canManageOwned_iff {ownerId : String} :
    actor.canManageOwned ownerId = true ↔ Administers actor ∨ ownerId = actor.ownerId := by
  simp [Actor.canManageOwned, Administers, Actor.isHost, or_assoc]

/-- Edit permission implies visibility. -/
theorem Sees.of_edits (edits : Edits actor row ctx) : Sees actor row ctx :=
  sees_iff.mpr (Row.visibleTo_of_canEdit (edits_iff.mp edits))

theorem not_edits_trashed (trashed : row.deletedAt.isSome = true) : ¬ Edits actor row ctx := by
  intro edits
  rw [edits.1] at trashed
  cases trashed

theorem sees_trashed_iff (trashed : row.deletedAt.isSome = true) :
    Sees actor row ctx ↔ Manages actor row := by
  rw [sees_iff, manages_iff, Row.visibleTo_trashed trashed]

/-- The entries determine one level. -/
theorem effective_unique (row : Row) (actor : Actor) (ctx : PermContext) :
    ∃! level, row.Effective actor ctx level := by
  refine ⟨row.effectiveLevel actor ctx, Row.effectiveLevel_iff.mp rfl, ?_⟩
  intro level effective
  exact (Row.effectiveLevel_iff.mpr effective).symm

end Decisions

end PeerCove
