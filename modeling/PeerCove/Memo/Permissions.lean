/-
Module: PeerCove.Memo.Permissions
Layer: Store
Purpose: Who may see, edit and manage a shared memo, and the memo as its reader is shown it.
Trusted boundary: none
Main exports: Actor, Row, PermContext, Row.effectiveLevel, Row.visibleTo, Row.canEdit,
  Row.canManage, Row.Effective
-/
import PeerCove.Memo.Types
import PeerCove.Library.Table
import Mathlib.Data.List.Sort

namespace PeerCove

/-- Who performs an operation; without a member id it is the host. -/
structure Actor where
  memberId : Option String
  name : String
  groupIds : List String := []
  admin : Bool
deriving Repr, DecidableEq

namespace Actor

def host (name : String) : Actor where
  memberId := none
  name := name
  admin := true

def member (id name : String) : Actor where
  memberId := some id
  name := name
  admin := false

def withGroups (actor : Actor) (ids : List String) : Actor :=
  { actor with groupIds := ids }

def withAdmin (actor : Actor) (admin : Bool) : Actor :=
  { actor with admin := admin }

def isHost (actor : Actor) : Bool :=
  actor.memberId.isNone

/-- The actor as an owner; the host is the empty string. -/
def ownerId (actor : Actor) : String :=
  actor.memberId.getD ""

/-- The host, or a member with delegated administration. -/
def isAdmin (actor : Actor) : Bool :=
  actor.isHost || actor.admin

end Actor

/-- Columns of the table `memos`; the id is the key. -/
structure MemoRow where
  title : String
  body : String
  folderId : Option String
  revision : Nat
  ownerId : String
  ownerName : String
  createdAt : Nat
  updatedAt : Nat
  updatedBy : Option String
  everyone : SharedPermLevel
  deletedAt : Option Nat
deriving Repr, DecidableEq

/-- A memo as queries read it, with the number of its comments. -/
structure Row extends MemoRow where
  id : String
  commentCount : Nat
deriving Repr, DecidableEq

/-- The permission entries of one memo: name and level by member, and by group. -/
structure PermContext where
  levels : Table String (String × SharedPermLevel)
  groupLevels : Table String (String × SharedPermLevel)
deriving DecidableEq

namespace PermContext

/-- The entry of a member. -/
def level? (ctx : PermContext) (memberId : String) : Option SharedPermLevel :=
  (ctx.levels.get? memberId).map Prod.snd

def groupLevel? (ctx : PermContext) (groupId : String) : Option SharedPermLevel :=
  (ctx.groupLevels.get? groupId).map Prod.snd

/-- All member entries by name, then by id. -/
def members (ctx : PermContext) : List SharedMemberPerm :=
  (ctx.levels.rows.map (fun (memberId, name, level) =>
    { memberId := memberId, name := name, level := level : SharedMemberPerm })).insertionSort
      (fun one two => one.name < two.name ∨ (one.name = two.name ∧ one.memberId ≤ two.memberId))

/-- All group entries by name, then by id. -/
def groups (ctx : PermContext) : List SharedGroupPerm :=
  (ctx.groupLevels.rows.map (fun (groupId, name, level) =>
    { groupId := groupId, name := name, level := level : SharedGroupPerm })).insertionSort
      (fun one two => one.name < two.name ∨ (one.name = two.name ∧ one.groupId ≤ two.groupId))

end PermContext

namespace Row

variable (row : Row) (actor : Actor) (ctx : PermContext)

/-- The largest of the entries of the groups the actor is in. -/
def groupMax : Option SharedPermLevel :=
  SharedPermLevel.maximum (actor.groupIds.filterMap ctx.groupLevel?)

/-- The member's own entry, before those of its groups, before the one for everyone. -/
def effectiveLevel : SharedPermLevel :=
  match ctx.level? actor.ownerId with
  | some level => level
  | none => (groupMax actor ctx).getD row.everyone

def visibleTo : Bool :=
  if actor.isHost || actor.admin || row.ownerId = actor.ownerId then true
  else if row.deletedAt.isSome then false
  else row.effectiveLevel actor ctx ≠ .none

def canEdit : Bool :=
  if row.deletedAt.isSome then false
  else if actor.isHost || row.ownerId = actor.ownerId then true
  else row.effectiveLevel actor ctx = .editor

def canManage : Bool :=
  actor.isHost || actor.admin || row.ownerId = actor.ownerId

/-- What a listing shows; the service fills in who is editing. -/
def summary : SharedMemoSummary where
  id := row.id
  title := row.title
  excerpt := excerpt row.body EXCERPT_CHARS
  folderId := row.folderId
  revision := row.revision
  createdAt := row.createdAt
  updatedAt := row.updatedAt
  updatedBy := row.updatedBy
  ownerId := row.ownerId
  ownerName := row.ownerName
  deletedAt := row.deletedAt
  canEdit := row.canEdit actor ctx
  canManage := row.canManage actor
  lockedBy := none
  checklistDone := (checklistProgress row.body).1
  checklistTotal := (checklistProgress row.body).2
  commentCount := row.commentCount

/-- The memo itself, with the permission entries for those who may change them. -/
def detail : SharedMemoDetail where
  id := row.id
  title := row.title
  body := row.body
  folderId := row.folderId
  revision := row.revision
  createdAt := row.createdAt
  updatedAt := row.updatedAt
  updatedBy := row.updatedBy
  ownerId := row.ownerId
  ownerName := row.ownerName
  deletedAt := row.deletedAt
  canEdit := row.canEdit actor ctx
  canManage := row.canManage actor
  lockedBy := none
  everyone := if row.canManage actor then some row.everyone else none
  members := if row.canManage actor then ctx.members else []
  groups := if row.canManage actor then ctx.groups else []
  commentCount := row.commentCount

/-! ### What the decisions mean -/

/-- The permission level of an actor, by the precedence of the three kinds of entries. -/
inductive Effective : SharedPermLevel → Prop where
  | ofMember (level : SharedPermLevel) (entry : ctx.level? actor.ownerId = some level) :
      Effective level
  | ofGroups (level : SharedPermLevel) (noEntry : ctx.level? actor.ownerId = none)
      (attained : ∃ group ∈ actor.groupIds, ctx.groupLevel? group = some level)
      (largest : ∀ group ∈ actor.groupIds, ∀ other, ctx.groupLevel? group = some other →
        other ≤ level) :
      Effective level
  | ofEveryone (noEntry : ctx.level? actor.ownerId = none)
      (noGroup : ∀ group ∈ actor.groupIds, ctx.groupLevel? group = none) :
      Effective row.everyone

end Row

namespace SharedPermLevel

theorem le_refl (level : SharedPermLevel) : level ≤ level :=
  Nat.le_refl level.rank

theorem le_trans {one two three : SharedPermLevel} (first : one ≤ two) (second : two ≤ three) :
    one ≤ three :=
  Nat.le_trans first second

theorem le_antisymm {one two : SharedPermLevel} (first : one ≤ two) (second : two ≤ one) :
    one = two := by
  have same : one.rank = two.rank := Nat.le_antisymm first second
  cases one <;> cases two <;> first | rfl | cases same

theorem le_max_left (one two : SharedPermLevel) : one ≤ max one two := by
  unfold max
  split
  · assumption
  · exact le_refl one

theorem le_max_right (one two : SharedPermLevel) : two ≤ max one two := by
  unfold max
  split
  · exact le_refl two
  · rename_i above
    exact Nat.le_of_not_le above

theorem max_eq (one two : SharedPermLevel) : max one two = one ∨ max one two = two := by
  unfold max
  split
  · exact .inr rfl
  · exact .inl rfl

/-- Taking the maximum step by step ends at an element that is above all of them. -/
theorem foldl_max (levels : List SharedPermLevel) (first : SharedPermLevel) :
    levels.foldl max first ∈ first :: levels ∧
      ∀ level ∈ first :: levels, level ≤ levels.foldl max first := by
  induction levels generalizing first with
  | nil => simp [le_refl]
  | cons next rest ih =>
      obtain ⟨attained, above⟩ := ih (max first next)
      have top := above (max first next) List.mem_cons_self
      refine ⟨?_, ?_⟩
      · rcases List.mem_cons.mp attained with here | later
        · rw [List.foldl_cons, here]
          rcases max_eq first next with same | same
          · rw [same]
            exact List.mem_cons_self
          · rw [same]
            exact List.mem_cons_of_mem _ List.mem_cons_self
        · exact List.mem_cons_of_mem _ (List.mem_cons_of_mem _ later)
      · intro level member
        rcases List.mem_cons.mp member with rfl | member
        · exact le_trans (le_max_left level next) top
        · rcases List.mem_cons.mp member with rfl | member
          · exact le_trans (le_max_right first level) top
          · exact above level (List.mem_cons_of_mem _ member)

theorem maximum_eq_some {levels : List SharedPermLevel} {level : SharedPermLevel} :
    maximum levels = some level ↔ level ∈ levels ∧ ∀ other ∈ levels, other ≤ level := by
  cases levels with
  | nil => simp [maximum]
  | cons first rest =>
      obtain ⟨attained, above⟩ := foldl_max rest first
      rw [maximum, Option.some.injEq]
      constructor
      · intro same
        rw [← same]
        exact ⟨attained, above⟩
      · intro h
        exact le_antisymm (h.2 _ attained) (above level h.1)

theorem maximum_eq_none {levels : List SharedPermLevel} :
    maximum levels = Option.none ↔ levels = [] := by
  cases levels with
  | nil => simp [maximum]
  | cons first rest => simp [maximum]

end SharedPermLevel

namespace Row

variable {row : Row} {actor : Actor} {ctx : PermContext}

/-- The code's level is the one the precedence gives, and there is no other. -/
theorem effectiveLevel_iff {level : SharedPermLevel} :
    row.effectiveLevel actor ctx = level ↔ row.Effective actor ctx level := by
  have unfolded : row.effectiveLevel actor ctx =
      match ctx.level? actor.ownerId with
      | some level => level
      | none => (groupMax actor ctx).getD row.everyone := rfl
  cases entry : ctx.level? actor.ownerId with
  | some own =>
      rw [unfolded, entry]
      constructor
      · intro same
        exact .ofMember level (by rw [entry, ← same])
      · intro effective
        cases effective with
        | ofMember level entry' => exact Option.some.inj (entry.symm.trans entry')
        | ofGroups level noEntry => rw [entry] at noEntry; cases noEntry
        | ofEveryone noEntry => rw [entry] at noEntry; cases noEntry
  | none =>
      rw [unfolded, entry]
      cases groups : groupMax actor ctx with
      | some largest =>
          obtain ⟨member, above⟩ := SharedPermLevel.maximum_eq_some.mp groups
          have attained := List.mem_filterMap.mp member
          have bound : ∀ group ∈ actor.groupIds, ∀ other, ctx.groupLevel? group = some other →
              other ≤ largest := by
            intro group belongs other found
            exact above other (List.mem_filterMap.mpr ⟨group, belongs, found⟩)
          constructor
          · intro same
            obtain rfl : largest = level := same
            exact .ofGroups largest entry attained bound
          · intro effective
            cases effective with
            | ofMember level entry' => rw [entry] at entry'; cases entry'
            | ofGroups level noEntry attained' bound' =>
                obtain ⟨group, belongs, found⟩ := attained
                obtain ⟨group', belongs', found'⟩ := attained'
                exact SharedPermLevel.le_antisymm (bound' group belongs _ found)
                  (bound group' belongs' _ found')
            | ofEveryone noEntry noGroup =>
                obtain ⟨group, belongs, found⟩ := attained
                rw [noGroup group belongs] at found
                cases found
      | none =>
          have noGroup : ∀ group ∈ actor.groupIds, ctx.groupLevel? group = none := by
            have empty := SharedPermLevel.maximum_eq_none.mp groups
            exact List.filterMap_eq_nil_iff.mp empty
          constructor
          · intro same
            obtain rfl : row.everyone = level := same
            exact .ofEveryone entry noGroup
          · intro effective
            cases effective with
            | ofMember level entry' => rw [entry] at entry'; cases entry'
            | ofGroups level noEntry attained bound =>
                obtain ⟨group, belongs, found⟩ := attained
                rw [noGroup group belongs] at found
                cases found
            | ofEveryone => rfl

theorem canManage_iff :
    row.canManage actor = true ↔ actor.isAdmin = true ∨ row.ownerId = actor.ownerId := by
  simp [canManage, Actor.isAdmin, or_assoc]

/-- A memo outside the trash is seen by its managers and by those with some level. -/
theorem visibleTo_iff :
    row.visibleTo actor ctx = true ↔
      row.canManage actor = true ∨
        (row.deletedAt = none ∧ row.effectiveLevel actor ctx ≠ .none) := by
  unfold visibleTo canManage
  split
  · simp_all
  · rename_i noManager
    cases trashed : row.deletedAt with
    | none => simp [noManager]
    | some time => simp [noManager]

theorem canEdit_iff :
    row.canEdit actor ctx = true ↔
      row.deletedAt = none ∧ (actor.isHost = true ∨ row.ownerId = actor.ownerId ∨
        row.effectiveLevel actor ctx = .editor) := by
  unfold canEdit
  cases trashed : row.deletedAt with
  | some time => simp
  | none =>
      cases host : actor.isHost with
      | true => simp
      | false =>
          by_cases owner : row.ownerId = actor.ownerId
          · simp [owner]
          · simp [owner]

/-- Who may edit a memo sees it. -/
theorem visibleTo_of_canEdit (edit : row.canEdit actor ctx = true) :
    row.visibleTo actor ctx = true := by
  rw [visibleTo_iff, canManage_iff]
  obtain ⟨present, host | owner | level⟩ := canEdit_iff.mp edit
  · exact .inl (.inl (by simp [Actor.isAdmin, host]))
  · exact .inl (.inr owner)
  · exact .inr ⟨present, by simp [level]⟩

theorem visibleTo_of_canManage (manage : row.canManage actor = true) :
    row.visibleTo actor ctx = true :=
  visibleTo_iff.mpr (.inl manage)

/-- A memo in the trash is seen by its owner, the host and the admins. -/
theorem visibleTo_trashed (trashed : row.deletedAt.isSome = true) :
    row.visibleTo actor ctx = row.canManage actor := by
  rw [Bool.eq_iff_iff, visibleTo_iff]
  cases time : row.deletedAt with
  | none => simp [time] at trashed
  | some time => simp

end Row

end PeerCove
