/-
Module: PeerCove.Proofs.GroupGossip
Layer: Proofs
Purpose: When the chat groups converge: what a delivery, an acknowledgement and an edit keep, and what
  follows once nothing is left to send.
Trusted boundary: none
Main exports: Reached, Told, GroupNet.Kept, GroupNet.Careful, GroupNet.converges,
  GroupNet.diverges
-/
import PeerCove.Chat.GroupNet
import PeerCove.Library.Runs
import Mathlib.Logic.Relation
import Mathlib.Order.MinMax

namespace PeerCove

open Fallible

/-! ### The order of the versions -/

theorem newerThan_iff {group current : GroupInfo} :
    group.newerThan current = true ↔ current.rank < group.rank := by
  rw [GroupInfo.rank, GroupInfo.rank, Prod.Lex.toLex_lt_toLex, GroupInfo.newerThan]
  simp only [Bool.or_eq_true, Bool.and_eq_true, decide_eq_true_eq, gt_iff_lt]
  exact or_congr_right (and_congr_left' eq_comm)

theorem rank_le_revision {one two : GroupInfo} (below : one.rank ≤ two.rank) :
    one.revision ≤ two.revision := by
  rw [GroupInfo.rank, GroupInfo.rank, Prod.Lex.toLex_le_toLex] at below
  rcases below with less | ⟨same, _⟩
  · exact less.le
  · exact same.le

theorem rank_lt_of_revision {one two : GroupInfo} (less : one.revision < two.revision) :
    one.rank < two.rank := by
  rw [GroupInfo.rank, GroupInfo.rank, Prod.Lex.toLex_lt_toLex]
  exact .inl less

theorem rank_eq {one two : GroupInfo} (same : one.rank = two.rank) :
    one.revision = two.revision ∧ one.updatedBy = two.updatedBy := by
  obtain ⟨revision, author⟩ := Prod.mk.inj (toLex_inj.mp same)
  exact ⟨revision, BitVec.eq_of_toNat_eq author⟩

/-! ### The store -/

namespace GroupStore

variable {store : GroupStore} {group : GroupInfo}

theorem apply_other {id : String} (other : id ≠ group.id) :
    (store.apply group).1.groups id = store.groups id := by
  unfold apply
  split
  · exact Function.update_of_ne other _ _
  · rfl

/-- After `apply` the store holds the version, or one that it is not newer than. -/
theorem apply_self (store : GroupStore) (group : GroupInfo) :
    (store.apply group).1.groups group.id = some group ∧
        (∀ current, store.groups group.id = some current → current.rank < group.rank) ∨
      ∃ current, store.groups group.id = some current ∧ group.rank ≤ current.rank ∧
        (store.apply group).1.groups group.id = some current := by
  unfold apply isNewer
  cases here : store.groups group.id with
  | none =>
      refine .inl ⟨?_, fun _ => nofun⟩
      rw [if_pos rfl]
      exact Function.update_self ..
  | some current =>
      by_cases newer : group.newerThan current = true
      · refine .inl ⟨?_, ?_⟩
        · rw [if_pos newer]
          exact Function.update_self ..
        · rintro _ ⟨⟩
          exact newerThan_iff.mp newer
      · refine .inr ⟨current, rfl, ?_, ?_⟩
        · exact not_lt.mp (fun less => newer (newerThan_iff.mpr less))
        · rw [if_neg newer]
          exact here

theorem apply_acked {id : String} {peer : Ipv4Addr} :
    (store.apply group).1.acked id peer = store.acked id peer := by
  unfold apply
  split
  · rfl
  · rfl

theorem markAcked_acked {id other : String} {peer ip : Ipv4Addr} {revision : Nat} :
    (store.markAcked id peer revision).acked other ip =
      if other = id ∧ ip = peer then max (store.acked id peer) revision
      else store.acked other ip :=
  rfl

/-- What is due is a group at hand, of which the device is a member. -/
theorem mem_pendingSync {selfIp peer : Ipv4Addr} {online : List Ipv4Addr} {now retryAfter : Nat}
    {hostIp : Option Ipv4Addr} :
    (peer, group) ∈ (store.pendingSync selfIp online now retryAfter hostIp).1 ↔
      store.groups group.id = some group ∧ selfIp ∈ group.members ∧
        peer ∈ syncTargets selfIp hostIp group ∧ store.isDue online now retryAfter group peer := by
  unfold pendingSync
  simp only [List.mem_flatMap, List.mem_filter, List.mem_filterMap, List.mem_map,
    Prod.mk.injEq]
  constructor
  · rintro ⟨_, ⟨⟨id, _, found⟩, member⟩, _, ⟨target, due⟩, rfl, rfl⟩
    rw [store.keyed id _ found]
    exact ⟨found, List.contains_iff_mem.mp member, target, due⟩
  · rintro ⟨found, member, target, due⟩
    exact ⟨group, ⟨⟨group.id, store.listed _ _ found, found⟩, List.contains_iff_mem.mpr member⟩,
      peer, ⟨target, due⟩, rfl, rfl⟩

theorem mem_syncTargets {selfIp peer : Ipv4Addr} {hostIp : Option Ipv4Addr}
    (member : peer ∈ group.members) (other : peer ≠ selfIp) :
    peer ∈ syncTargets selfIp hostIp group := by
  have listed : peer ∈ group.members.filter (fun ip => ip ≠ selfIp) :=
    List.mem_filter.mpr ⟨member, decide_eq_true other⟩
  unfold syncTargets
  split
  · dsimp only
    split
    · exact List.mem_append_left _ listed
    · exact listed
  · exact listed

end GroupStore

namespace GroupNet

/-! ### Who has a version -/

/-- The device is gone, or has the version or a newer one. -/
def Reached (net : GroupNet) (device : Ipv4Addr) (group : GroupInfo) : Prop :=
  net.gone device = true ∨
    ∃ held, (net.stores device).groups group.id = some held ∧ group.rank ≤ held.rank

/-- It is reached, or the version is on its way to it. -/
def Told (net : GroupNet) (device : Ipv4Addr) (group : GroupInfo) : Prop :=
  net.Reached device group ∨
    ∃ transmission ∈ net.inFlight, transmission.target = device ∧ transmission.group = group

/-- Somebody an edit takes out of the group. -/
def TakesOut (revision : GroupRevision) (device : Ipv4Addr) : Prop :=
  ∃ before, revision.before = some before ∧ device ∈ before.members ∧
    device ∉ revision.after.members

/-- Those who are taken out are told, and one of those whom a leaving author leaves behind. -/
def Announced (net : GroupNet) (revision : GroupRevision) : Prop :=
  (∀ device, TakesOut revision device → net.Told device revision.after) ∧
    (revision.after.updatedBy ∉ revision.after.members →
      revision.after.members = [] ∨ ∃ device ∈ revision.after.members,
        net.Told device revision.after)

/-! ### The invariant -/

structure Kept (net : GroupNet) : Prop where
  stored : ∀ device id group, (net.stores device).groups id = some group → group ∈ net.versions
  author : ∀ group ∈ net.versions, net.Reached group.updatedBy group
  unique : ∀ one ∈ net.versions, ∀ two ∈ net.versions, one.id = two.id → one.rank = two.rank →
    one = two
  positive : ∀ group ∈ net.versions, 1 ≤ group.revision
  revised : ∀ revision ∈ net.history, ∀ before, revision.before = some before →
    before.id = revision.after.id ∧ revision.after.revision = before.revision + 1
  drafted : ∀ draft ∈ net.drafts, draft.before.id = draft.after.id ∧
    draft.after.revision = draft.before.revision + 1 ∧ draft.after.updatedBy = draft.author
  sent : ∀ transmission, transmission ∈ net.inFlight ∨ transmission ∈ net.answered →
    transmission.group ∈ net.versions ∧
      (net.gone transmission.sender = true ∨
        ∃ held, (net.stores transmission.sender).groups transmission.group.id = some held ∧
          transmission.group.rank ≤ held.rank ∧
          (transmission.group.revision = held.revision → transmission.group = held))
  answered : ∀ transmission ∈ net.answered, net.Reached transmission.target transmission.group
  acked : ∀ device id peer, 0 < (net.stores device).acked id peer →
    ∃ held, (net.stores device).groups id = some held ∧
      (net.stores device).acked id peer ≤ held.revision
  honest : ∀ device peer id held, (net.stores device).groups id = some held →
    held.revision ≤ (net.stores device).acked id peer → net.Reached peer held
  announced : ∀ revision ∈ net.history, net.Announced revision

/-- What is acknowledged of a group that the device holds is at most what it holds. -/
theorem Kept.acked_le {net : GroupNet} (kept : net.Kept) {device : Ipv4Addr} {id : String}
    {held : GroupInfo} (found : (net.stores device).groups id = some held) (peer : Ipv4Addr) :
    (net.stores device).acked id peer ≤ held.revision := by
  rcases Nat.eq_zero_or_pos ((net.stores device).acked id peer) with none | some
  · omega
  · obtain ⟨other, found', level⟩ := kept.acked device id peer some
    cases found'.symm.trans found
    exact level

theorem kept_start : Kept {} where
  stored := fun _ _ _ => nofun
  author := fun _ => nofun
  unique := fun _ => nofun
  positive := fun _ => nofun
  revised := fun _ => nofun
  drafted := fun _ => nofun
  sent := fun _ listed => absurd listed (by simp)
  answered := fun _ => nofun
  acked := fun _ _ _ => nofun
  honest := fun _ _ _ _ => nofun
  announced := fun _ => nofun

/-! ### The condition -/

/-- The net without a transmission. -/
def without (net : GroupNet) (transmission : Transmission) : GroupNet :=
  { net with inFlight := net.inFlight.erase transmission }

/-- A transmission that may be lost: nobody depends on it whom nobody tries again. -/
def Spared (net : GroupNet) (transmission : Transmission) : Prop :=
  ∀ revision ∈ net.history, revision.after = transmission.group →
    (net.without transmission).Announced revision

/-- The receiver holds no other version of the same revision. -/
def NoTie (net : GroupNet) (transmission : Transmission) : Prop :=
  ∀ held, (net.stores transmission.target).groups transmission.group.id = some held →
    held.revision = transmission.group.revision → held = transmission.group

/-- Whom an edit takes out of the group has left the net or is sent the edit, and so is one of those
whom a leaving author leaves behind; and the store has not changed since it was read. -/
structure CarefulDraft (net : GroupNet) (draft : GroupDraft) : Prop where
  current : (net.stores draft.author).groups draft.before.id = some draft.before
  takenOut : ∀ device ∈ draft.before.members, device ∉ draft.after.members →
    device = draft.author ∨ device ∈ draft.targets ∨ net.gone device = true
  leftBehind : draft.author ∉ draft.after.members → draft.after.members = [] ∨
    ∃ device ∈ draft.after.members, device ∈ draft.targets ∨ net.gone device = true

def Careful (event : GroupEvent) (net : GroupNet) : Prop :=
  match event with
  | .publish draft => net.CarefulDraft draft
  | .deliver transmission =>
      match receive (net.stores transmission.target) transmission.sender transmission.group with
      | some _ => net.NoTie transmission
      | none => net.Spared transmission
  | .lose transmission => net.Spared transmission
  | _ => True

/-! ### What grows -/

/-- Nobody comes back, and nobody loses a version but those who leave. -/
structure Grows (net next : GroupNet) : Prop where
  gone : ∀ device, net.gone device = true → next.gone device = true
  stores : ∀ device id held, (net.stores device).groups id = some held →
    next.gone device = true ∨
      ∃ later, (next.stores device).groups id = some later ∧ held.rank ≤ later.rank

theorem Reached.grow {net next : GroupNet} (grows : Grows net next) {device : Ipv4Addr}
    {group : GroupInfo} (reached : net.Reached device group) : next.Reached device group := by
  rcases reached with left | ⟨held, found, below⟩
  · exact .inl (grows.gone device left)
  · rcases grows.stores device group.id held found with left | ⟨later, found', above⟩
    · exact .inl left
    · exact .inr ⟨later, found', below.trans above⟩

theorem Told.grow {net next : GroupNet} (grows : Grows net next) {device : Ipv4Addr}
    {group : GroupInfo}
    (flies : ∀ transmission ∈ net.inFlight, transmission ∈ next.inFlight ∨
      next.Reached transmission.target transmission.group)
    (told : net.Told device group) : next.Told device group := by
  rcases told with reached | ⟨transmission, listed, rfl, rfl⟩
  · exact .inl (reached.grow grows)
  · rcases flies transmission listed with still | reached
    · exact .inr ⟨transmission, still, rfl, rfl⟩
    · exact .inl reached

theorem Announced.grow {net next : GroupNet} (grows : Grows net next) {revision : GroupRevision}
    (flies : ∀ transmission ∈ net.inFlight, transmission ∈ next.inFlight ∨
      next.Reached transmission.target transmission.group)
    (announced : net.Announced revision) : next.Announced revision := by
  refine ⟨fun device out => (announced.1 device out).grow grows flies, fun left => ?_⟩
  rcases announced.2 left with empty | ⟨device, member, told⟩
  · exact .inl empty
  · exact .inr ⟨device, member, told.grow grows flies⟩

theorem Grows.of_same {net next : GroupNet} (gone : next.gone = net.gone)
    (groups : ∀ device, (next.stores device).groups = (net.stores device).groups) :
    Grows net next where
  gone := fun _ left => gone ▸ left
  stores := fun device _ held found => .inr ⟨held, groups device ▸ found, le_rfl⟩

/-- What one store is replaced by looks the same, so all of them do. -/
theorem setStore_view {γ : Type} (view : GroupStore → γ) {net : GroupNet} {device : Ipv4Addr}
    {store : GroupStore} (same : view store = view (net.stores device)) (other : Ipv4Addr) :
    view ((net.setStore device store).stores other) = view (net.stores other) := by
  change view (Function.update net.stores device store other) = _
  by_cases here : other = device
  · rw [here, Function.update_self, same]
  · rw [Function.update_of_ne here]

/-! ### Edits -/

/-- What the stores hold after an announcement. -/
theorem announce_groups {net : GroupNet} {author : Ipv4Addr} {revision : GroupRevision}
    (targets : List Ipv4Addr)
    (newer : ∀ held, (net.stores author).groups revision.after.id = some held →
      held.revision < revision.after.revision) (device : Ipv4Addr) (id : String) :
    ((net.announce author revision targets).stores device).groups id =
      if device = author ∧ id = revision.after.id then some revision.after
      else (net.stores device).groups id := by
  change ((Function.update net.stores author
    ((net.stores author).apply revision.after).1) device).groups id = _
  by_cases same : device = author
  · subst same
    rw [Function.update_self]
    by_cases here : id = revision.after.id
    · subst here
      rw [if_pos ⟨rfl, rfl⟩]
      rcases GroupStore.apply_self (net.stores device) revision.after with
        ⟨taken, _⟩ | ⟨current, found, below, _⟩
      · exact taken
      · exact absurd (rank_lt_of_revision (newer current found)) (not_lt.mpr below)
    · rw [if_neg (fun both => here both.2)]
      exact GroupStore.apply_other here
  · rw [Function.update_of_ne same, if_neg (fun both => same both.1)]

theorem announce_acked {net : GroupNet} {author : Ipv4Addr} {revision : GroupRevision}
    {targets : List Ipv4Addr} (device : Ipv4Addr) (id : String) (peer : Ipv4Addr) :
    ((net.announce author revision targets).stores device).acked id peer =
      (net.stores device).acked id peer :=
  setStore_view (fun store => store.acked id peer) GroupStore.apply_acked device

theorem announce_grows {net : GroupNet} {author : Ipv4Addr} {revision : GroupRevision}
    (targets : List Ipv4Addr)
    (newer : ∀ held, (net.stores author).groups revision.after.id = some held →
      held.revision < revision.after.revision) :
    Grows net (net.announce author revision targets) where
  gone := fun _ left => left
  stores := by
    intro device id held found
    refine .inr ?_
    rw [announce_groups targets newer]
    split
    · rename_i both
      obtain ⟨rfl, rfl⟩ := both
      exact ⟨revision.after, rfl, (rank_lt_of_revision (newer held found)).le⟩
    · exact ⟨held, found, le_rfl⟩

/-- A new version, higher than all that its author has seen of the group. -/
theorem Kept.announce {net : GroupNet} (kept : net.Kept) {author : Ipv4Addr}
    (revision : GroupRevision) (targets : List Ipv4Addr) (here : net.gone author = false)
    (newer : ∀ held, (net.stores author).groups revision.after.id = some held →
      held.revision < revision.after.revision)
    (mine : revision.after.updatedBy = author) (positive : 1 ≤ revision.after.revision)
    (revised : ∀ before, revision.before = some before →
      before.id = revision.after.id ∧ revision.after.revision = before.revision + 1)
    (told : (net.announce author revision targets).Announced revision) :
    (net.announce author revision targets).Kept := by
  have grows := announce_grows targets newer
  have groups := announce_groups targets newer
  have unseen : ∀ id peer, id = revision.after.id →
      (net.stores author).acked id peer < revision.after.revision := by
    rintro id peer rfl
    by_contra high
    obtain ⟨held, found, below⟩ := kept.acked author revision.after.id peer
      (lt_of_lt_of_le positive (not_lt.mp high))
    exact absurd (newer held found) (not_lt.mpr ((not_lt.mp high).trans below))
  have versions : ∀ group, group ∈ (net.announce author revision targets).versions ↔
      group ∈ net.versions ∨ group = revision.after := by
    intro group
    unfold GroupNet.versions GroupNet.announce
    rw [List.map_append, List.mem_append]
    simp
  have first : ∀ group ∈ net.versions, group.id = revision.after.id →
      group.rank ≠ revision.after.rank := by
    intro group listed sameId sameRank
    obtain ⟨level, sameAuthor⟩ := rank_eq sameRank
    rcases kept.author group listed with left | ⟨held, found, below⟩
    · rw [sameAuthor, mine, here] at left
      cases left
    · rw [sameAuthor, mine, sameId] at found
      have more := newer held found
      have less := rank_le_revision below
      omega
  constructor
  · intro device id group found
    rw [groups] at found
    rw [versions]
    split at found
    · cases found
      exact .inr rfl
    · exact .inl (kept.stored device id group found)
  · intro group listed
    rcases (versions group).mp listed with old | rfl
    · exact (kept.author group old).grow grows
    · rw [mine]
      exact .inr ⟨revision.after, by rw [groups, if_pos ⟨rfl, rfl⟩], le_rfl⟩
  · intro one listed two listed' sameId sameRank
    rcases (versions one).mp listed with old | rfl
    · rcases (versions two).mp listed' with old' | rfl
      · exact kept.unique one old two old' sameId sameRank
      · exact absurd sameRank (first one old sameId)
    · rcases (versions two).mp listed' with old' | rfl
      · exact absurd sameRank.symm (first two old' sameId.symm)
      · rfl
  · intro group listed
    rcases (versions group).mp listed with old | rfl
    · exact kept.positive group old
    · exact positive
  · intro other listed before isBefore
    rcases List.mem_append.mp listed with old | new
    · exact kept.revised other old before isBefore
    · obtain rfl := List.mem_singleton.mp new
      exact revised before isBefore
  · exact kept.drafted
  · intro transmission listed
    have split : (transmission ∈ net.inFlight ∨ transmission ∈ net.answered) ∨
        transmission.sender = author ∧ transmission.group = revision.after := by
      rcases listed with flying | answered
      · rcases List.mem_append.mp flying with old | new
        · exact .inl (.inl old)
        · obtain ⟨target, _, rfl⟩ := List.mem_map.mp new
          exact .inr ⟨rfl, rfl⟩
      · exact .inl (.inr answered)
    rcases split with old | ⟨isAuthor, isNew⟩
    · obtain ⟨version, sender⟩ := kept.sent transmission old
      refine ⟨(versions _).mpr (.inl version), ?_⟩
      rcases sender with left | ⟨held, found, below, same⟩
      · exact .inl left
      · refine .inr ?_
        rw [groups]
        split
        · rename_i both
          obtain ⟨isAuthor, isGroup⟩ := both
          rw [isAuthor, isGroup] at found
          have more := newer held found
          refine ⟨revision.after, rfl, below.trans (rank_lt_of_revision more).le, fun level => ?_⟩
          have less := rank_le_revision below
          omega
        · exact ⟨held, found, below, same⟩
    · refine ⟨(versions _).mpr (.inr isNew), .inr ⟨revision.after, ?_, ?_, fun _ => isNew⟩⟩
      · rw [groups, if_pos ⟨isAuthor, congrArg GroupInfo.id isNew⟩]
      · rw [isNew]
  · exact fun transmission listed => (kept.answered transmission listed).grow grows
  · intro device id peer level
    rw [announce_acked] at level ⊢
    obtain ⟨held, found, below⟩ := kept.acked device id peer level
    rw [groups]
    split
    · rename_i both
      obtain ⟨rfl, rfl⟩ := both
      exact ⟨revision.after, rfl, below.trans (newer held found).le⟩
    · exact ⟨held, found, below⟩
  · intro device peer id held found level
    rw [groups] at found
    rw [announce_acked] at level
    split at found
    · rename_i both
      obtain ⟨rfl, isId⟩ := both
      cases found
      exact absurd (unseen id peer isId) (not_lt.mpr level)
    · exact (kept.honest device peer id held found level).grow grows
  · intro other listed
    rcases List.mem_append.mp listed with old | new
    · exact (kept.announced other old).grow grows
        (fun transmission flying => .inl (List.mem_append_left _ flying))
    · obtain rfl := List.mem_singleton.mp new
      exact told

/-! ### What an edit computes -/

theorem groupCreate_ok {selfIp : Ipv4Addr} {ledger : List GroupLedgerEntry} {id name : String}
    {members : List Ipv4Addr} {group : GroupInfo}
    (made : groupCreate selfIp ledger id name members = .ok group) :
    group.id = id ∧ group.revision = 1 ∧ group.updatedBy = selfIp ∧ selfIp ∈ group.members := by
  unfold groupCreate at made
  rcases bind_ok.mp made with ⟨name, _, made⟩
  rcases bind_ok.mp made with ⟨members, added, made⟩
  rcases bind_ok.mp made with ⟨⟨⟩, _, made⟩
  rcases bind_ok.mp made with ⟨⟨⟩, _, made⟩
  cases made
  refine ⟨rfl, rfl, rfl, ?_⟩
  have stays : ∀ (more : List Ipv4Addr) (start final : List Ipv4Addr), selfIp ∈ start →
      more.foldlM (addMember ledger) start = .ok final → selfIp ∈ final := by
    intro more
    induction more with
    | nil =>
        intro start final member done
        cases done
        exact member
    | cons ip rest ih =>
        intro start final member done
        rw [List.foldlM_cons] at done
        rcases bind_ok.mp done with ⟨next, step, done⟩
        refine ih next final ?_ done
        unfold addMember at step
        split at step
        · cases step
          exact member
        · split at step
          · cases step
            exact List.mem_append_left _ member
          · cases step
  exact stays _ _ _ List.mem_cons_self added

/-- Every edit makes the next revision. -/
theorem compute_some {edit : GroupEdit} {selfIp : Ipv4Addr} {hostIp : Option Ipv4Addr}
    {ledger : List GroupLedgerEntry} {before after : GroupInfo} {recipients : List Ipv4Addr}
    (made : edit.compute selfIp hostIp ledger before = some (after, recipients)) :
    before.id = after.id ∧ after.revision = before.revision + 1 ∧ after.updatedBy = selfIp := by
  cases edit with
  | update name add remove =>
      rw [GroupEdit.compute] at made
      split at made
      · rename_i group done
        cases made
        unfold groupUpdate at done
        rcases bind_ok.mp done with ⟨⟨⟩, _, done⟩
        rcases bind_ok.mp done with ⟨name, _, done⟩
        rcases bind_ok.mp done with ⟨members, _, done⟩
        rcases bind_ok.mp done with ⟨⟨⟩, _, done⟩
        rcases bind_ok.mp done with ⟨⟨⟩, _, done⟩
        cases done
        exact ⟨rfl, rfl, rfl⟩
      · cases made
  | leave =>
      rw [GroupEdit.compute] at made
      split at made
      · rename_i group done
        cases made
        unfold groupLeave at done
        rcases bind_ok.mp done with ⟨⟨⟩, _, done⟩
        cases done
        exact ⟨rfl, rfl, rfl⟩
      · cases made
  | prune departed =>
      rw [GroupEdit.compute] at made
      obtain ⟨group, pruned, same⟩ := Option.map_eq_some_iff.mp made
      cases same
      unfold pruneGroup at pruned
      split at pruned
      · cases pruned
        exact ⟨rfl, rfl, rfl⟩
      · cases pruned

/-! ### Steps -/

/-- A step that leaves the groups as they are, and acknowledges nothing that is not so. -/
theorem Kept.of_same {net next : GroupNet} (kept : net.Kept)
    (groups : ∀ device, (next.stores device).groups = (net.stores device).groups)
    (acked : ∀ device id peer, (next.stores device).acked id peer =
        (net.stores device).acked id peer ∨
      ∃ held, (net.stores device).groups id = some held ∧
        (next.stores device).acked id peer ≤ held.revision ∧
        (held.revision ≤ (next.stores device).acked id peer → net.Reached peer held))
    (gone : next.gone = net.gone) (history : next.history = net.history)
    (drafted : ∀ draft ∈ next.drafts, draft.before.id = draft.after.id ∧
      draft.after.revision = draft.before.revision + 1 ∧ draft.after.updatedBy = draft.author)
    (sent : ∀ transmission ∈ next.inFlight, transmission ∈ net.inFlight ∨
      transmission.group ∈ net.versions ∧
        (net.stores transmission.sender).groups transmission.group.id = some transmission.group)
    (answered : ∀ transmission ∈ next.answered, transmission ∈ net.answered)
    (announced : ∀ revision ∈ net.history, next.Announced revision) : next.Kept := by
  have grows := Grows.of_same gone groups
  have versions : next.versions = net.versions := by
    rw [GroupNet.versions, GroupNet.versions, history]
  constructor
  · intro device id group found
    rw [groups] at found
    exact versions ▸ kept.stored device id group found
  · intro group listed
    exact (kept.author group (versions ▸ listed)).grow grows
  · intro one listed two listed'
    exact kept.unique one (versions ▸ listed) two (versions ▸ listed')
  · intro group listed
    exact kept.positive group (versions ▸ listed)
  · intro revision listed
    exact kept.revised revision (history ▸ listed)
  · exact drafted
  · intro transmission listed
    rw [versions, groups, gone]
    rcases listed with flying | done
    · rcases sent transmission flying with old | ⟨version, held⟩
      · exact kept.sent transmission (.inl old)
      · exact ⟨version, .inr ⟨_, held, le_rfl, fun _ => rfl⟩⟩
    · exact kept.sent transmission (.inr (answered transmission done))
  · intro transmission listed
    exact (kept.answered transmission (answered transmission listed)).grow grows
  · intro device id peer level
    rw [groups]
    rcases acked device id peer with same | ⟨held, found, below, _⟩
    · rw [same] at level ⊢
      exact kept.acked device id peer level
    · exact ⟨held, found, below⟩
  · intro device peer id held found level
    rw [groups] at found
    rcases acked device id peer with same | ⟨other, found', _, reached⟩
    · rw [same] at level
      exact (kept.honest device peer id held found level).grow grows
    · cases found'.symm.trans found
      exact (reached level).grow grows
  · intro revision listed
    exact announced revision (history ▸ listed)

/-- What a receiver holds that takes an update. -/
theorem receive_some {store next : GroupStore} {sender : Ipv4Addr} {group : GroupInfo}
    (taken : receive store sender group = some next) :
    next = ((store.markAcked group.id sender group.revision).apply group).1 := by
  unfold receive at taken
  split at taken
  · cases taken
  · split at taken
    · cases taken
      rfl
    · cases taken

/-- The stores after a delivery that is taken. -/
def delivered (net : GroupNet) (transmission : Transmission) (store : GroupStore) : GroupNet :=
  { (net.without transmission).setStore transmission.target store with
    answered := net.answered ++ [transmission] }

theorem delivered_store {net : GroupNet} {transmission : Transmission} {store : GroupStore}
    (device : Ipv4Addr) :
    (net.delivered transmission store).stores device =
      if device = transmission.target then store else net.stores device := by
  change Function.update net.stores transmission.target store device = _
  by_cases same : device = transmission.target
  · subst same
    rw [Function.update_self, if_pos rfl]
  · rw [Function.update_of_ne same, if_neg same]

/-- The receiver has the update afterwards, or the newer version that it had; nothing else changes. -/
theorem received_groups {store next : GroupStore} {sender : Ipv4Addr} {group : GroupInfo}
    (taken : receive store sender group = some next) :
    (∀ id, id ≠ group.id → next.groups id = store.groups id) ∧
      (next.groups group.id = some group ∧
          (∀ held, store.groups group.id = some held → held.rank < group.rank) ∨
        ∃ held, store.groups group.id = some held ∧ group.rank ≤ held.rank ∧
          next.groups group.id = some held) := by
  rw [receive_some taken]
  exact ⟨fun id other => GroupStore.apply_other other, GroupStore.apply_self
    (store.markAcked group.id sender group.revision) group⟩

theorem received_acked {store next : GroupStore} {sender : Ipv4Addr} {group : GroupInfo}
    (taken : receive store sender group = some next) (id : String) (peer : Ipv4Addr) :
    next.acked id peer =
      if id = group.id ∧ peer = sender then max (store.acked group.id sender) group.revision
      else store.acked id peer := by
  rw [receive_some taken, GroupStore.apply_acked, GroupStore.markAcked_acked]

theorem delivered_grows {net : GroupNet} {transmission : Transmission} {store : GroupStore}
    (taken : receive (net.stores transmission.target) transmission.sender transmission.group =
      some store) : Grows net (net.delivered transmission store) where
  gone := fun _ left => left
  stores := by
    intro device id held found
    refine .inr ?_
    rw [delivered_store]
    split
    · rename_i same
      subst same
      obtain ⟨others, mine⟩ := received_groups taken
      by_cases here : id = transmission.group.id
      · subst here
        rcases mine with ⟨now, newer⟩ | ⟨current, before, _, now⟩
        · exact ⟨_, now, (newer held found).le⟩
        · cases before.symm.trans found
          exact ⟨held, now, le_rfl⟩
      · exact ⟨held, (others id here).trans found, le_rfl⟩
    · exact ⟨held, found, le_rfl⟩

/-- The receiver has the version, or a newer one. -/
theorem delivered_reached {net : GroupNet} {transmission : Transmission} {store : GroupStore}
    (taken : receive (net.stores transmission.target) transmission.sender transmission.group =
      some store) :
    (net.delivered transmission store).Reached transmission.target transmission.group := by
  refine .inr ?_
  rw [delivered_store, if_pos rfl]
  rcases (received_groups taken).2 with ⟨now, _⟩ | ⟨held, _, below, now⟩
  · exact ⟨_, now, le_rfl⟩
  · exact ⟨held, now, below⟩

theorem Kept.deliver {net : GroupNet} (kept : net.Kept) {transmission : Transmission}
    {store : GroupStore} (flying : transmission ∈ net.inFlight)
    (taken : receive (net.stores transmission.target) transmission.sender transmission.group =
      some store) (noTie : net.NoTie transmission) :
    (net.delivered transmission store).Kept := by
  have grows := delivered_grows taken
  have reached := delivered_reached taken
  obtain ⟨others, mine⟩ := received_groups taken
  obtain ⟨version, sender⟩ := kept.sent transmission (.inl flying)
  -- Without a tie a version that is replaced has a lower revision.
  have lower : ∀ held, (net.stores transmission.target).groups transmission.group.id = some held →
      held.rank < transmission.group.rank → held.revision < transmission.group.revision := by
    intro held found less
    refine lt_of_le_of_ne (rank_le_revision less.le) fun level => ?_
    rw [noTie held found level] at less
    exact less.false
  have senderReached : (net.delivered transmission store).Reached transmission.sender
      transmission.group := by
    have before : net.Reached transmission.sender transmission.group := by
      rcases sender with left | ⟨held, found, below, _⟩
      · exact .inl left
      · exact .inr ⟨held, found, below⟩
    exact before.grow grows
  constructor
  · intro device id group found
    rw [delivered_store] at found
    split at found
    · by_cases here : id = transmission.group.id
      · subst here
        rcases mine with ⟨now, _⟩ | ⟨held, before, _, now⟩
        · cases now.symm.trans found
          exact version
        · cases now.symm.trans found
          exact kept.stored _ _ _ before
      · exact kept.stored _ _ _ ((others id here).symm.trans found)
    · exact kept.stored device id group found
  · exact fun group listed => (kept.author group listed).grow grows
  · exact kept.unique
  · exact kept.positive
  · exact kept.revised
  · exact kept.drafted
  · intro other listed
    have before : other ∈ net.inFlight ∨ other ∈ net.answered := by
      rcases listed with still | done
      · exact .inl (List.mem_of_mem_erase still)
      · rcases List.mem_append.mp done with old | new
        · exact .inr old
        · exact .inl (List.mem_singleton.mp new ▸ flying)
    obtain ⟨listed, source⟩ := kept.sent other before
    refine ⟨listed, ?_⟩
    rcases source with left | ⟨held, found, below, same⟩
    · exact .inl left
    · refine .inr ?_
      rw [delivered_store]
      split
      · rename_i isTarget
        rw [isTarget] at found
        by_cases here : other.group.id = transmission.group.id
        · rw [here] at found ⊢
          rcases mine with ⟨now, newer⟩ | ⟨current, was, _, now⟩
          · have more := newer held found
            refine ⟨_, now, below.trans more.le, fun level => ?_⟩
            have less := rank_le_revision below
            have strict := lower held found more
            omega
          · cases was.symm.trans found
            exact ⟨held, now, below, same⟩
        · exact ⟨held, (others _ here).trans found, below, same⟩
      · exact ⟨held, found, below, same⟩
  · intro other listed
    rcases List.mem_append.mp listed with old | new
    · exact (kept.answered other old).grow grows
    · rw [List.mem_singleton.mp new]
      exact reached
  · intro device id peer level
    rw [delivered_store] at level ⊢
    split
    · rename_i same
      rw [if_pos same, received_acked taken] at level
      rw [received_acked taken]
      by_cases here : id = transmission.group.id
      · subst here
        rcases mine with ⟨now, newer⟩ | ⟨held, before, above, now⟩
        · refine ⟨_, now, ?_⟩
          have old : (net.stores transmission.target).acked transmission.group.id peer ≤
              transmission.group.revision := by
            rcases Nat.eq_zero_or_pos
              ((net.stores transmission.target).acked transmission.group.id peer) with none | some
            · omega
            · obtain ⟨held, found, below⟩ := kept.acked _ _ _ some
              exact below.trans (rank_le_revision (newer held found).le)
          split
          · rename_i both
            rw [both.2] at old
            exact max_le old le_rfl
          · exact old
        · refine ⟨held, now, ?_⟩
          have old := kept.acked_le before peer
          split
          · rename_i both
            rw [both.2] at old
            exact max_le old (rank_le_revision above)
          · exact old
      · rw [if_neg (fun both => here both.1)] at level ⊢
        rw [others id here]
        exact kept.acked _ _ _ level
    · rename_i other
      rw [if_neg other] at level
      exact kept.acked device id peer level
  · intro device peer id held found level
    rw [delivered_store] at found level
    split at found
    · rename_i same
      rw [if_pos same, received_acked taken] at level
      by_cases here : id = transmission.group.id
      · subst here
        rcases mine with ⟨now, newer⟩ | ⟨current, before, above, now⟩
        · cases now.symm.trans found
          split at level
          · rename_i both
            rw [both.2]
            exact senderReached
          · -- An older acknowledgement is of a lower revision.
            rcases Nat.eq_zero_or_pos
              ((net.stores transmission.target).acked transmission.group.id peer) with none | some
            · have positive := kept.positive _ version
              omega
            · obtain ⟨old, was, below⟩ := kept.acked _ _ _ some
              have strict := lower old was (newer old was)
              omega
        · cases now.symm.trans found
          split at level
          · rename_i both
            rcases le_max_iff.mp level with old | tie
            · rw [both.2]
              exact (kept.honest _ _ _ _ before old).grow grows
            · have equal := noTie held before (le_antisymm tie (rank_le_revision above))
              rw [equal, both.2]
              exact senderReached
          · exact (kept.honest _ _ _ _ before level).grow grows
      · rw [if_neg (fun both => here both.1)] at level
        rw [others id here] at found
        exact (kept.honest _ _ _ _ found level).grow grows
    · rename_i other
      rw [if_neg other] at level
      exact (kept.honest device peer id held found level).grow grows
  · intro revision listed
    refine (kept.announced revision listed).grow grows fun other there => ?_
    by_cases same : other = transmission
    · rw [same]
      exact .inr reached
    · exact .inl ((List.mem_erase_of_ne same).mpr there)

/-- A transmission that is lost, or refused. -/
theorem Kept.lose {net : GroupNet} (kept : net.Kept) {transmission : Transmission}
    (spared : net.Spared transmission) : (net.without transmission).Kept := by
  refine kept.of_same (fun _ => rfl) (fun _ _ _ => .inl rfl) rfl rfl kept.drafted
    (fun _ there => .inl (List.mem_of_mem_erase there)) (fun _ done => done) ?_
  intro revision listed
  by_cases same : revision.after = transmission.group
  · exact spared revision listed same
  · have told : ∀ device, net.Told device revision.after →
        (net.without transmission).Told device revision.after := by
      rintro device (reached | ⟨other, flying, isTarget, isGroup⟩)
      · exact .inl (reached.grow (Grows.of_same rfl (fun _ => rfl)))
      · refine .inr ⟨other, (List.mem_erase_of_ne ?_).mpr flying, isTarget, isGroup⟩
        rintro rfl
        exact same isGroup.symm
    have before := kept.announced revision listed
    refine ⟨fun device out => told device (before.1 device out), fun left => ?_⟩
    rcases before.2 left with empty | ⟨device, member, sent⟩
    · exact .inl empty
    · exact .inr ⟨device, member, told device sent⟩

theorem Kept.acknowledge {net : GroupNet} (kept : net.Kept) {transmission : Transmission}
    (answered : transmission ∈ net.answered) (here : net.gone transmission.sender = false) :
    ({ net.setStore transmission.sender ((net.stores transmission.sender).markAcked
        transmission.group.id transmission.target transmission.group.revision) with
      answered := net.answered.erase transmission } : GroupNet).Kept := by
  obtain ⟨_, left | ⟨held, found, below, same⟩⟩ := kept.sent transmission (.inr answered)
  · rw [here] at left
    cases left
  have groups : ∀ device, (Function.update net.stores transmission.sender
      ((net.stores transmission.sender).markAcked transmission.group.id transmission.target
        transmission.group.revision) device).groups = (net.stores device).groups :=
    setStore_view GroupStore.groups rfl
  refine kept.of_same groups ?_ rfl rfl kept.drafted (fun _ flying => .inl flying)
    (fun _ done => List.mem_of_mem_erase done) ?_
  · intro device id peer
    by_cases isSender : device = transmission.sender
    · subst isSender
      change (Function.update net.stores _ _ _).acked id peer = _ ∨ ∃ held, _ ∧
        (Function.update net.stores _ _ _).acked id peer ≤ _ ∧ (_ ≤
          (Function.update net.stores _ _ _).acked id peer → _)
      rw [Function.update_self, GroupStore.markAcked_acked]
      split
      · rename_i both
        obtain ⟨rfl, rfl⟩ := both
        have old := kept.acked_le found transmission.target
        refine .inr ⟨held, found, max_le old (rank_le_revision below), fun level => ?_⟩
        rcases le_max_iff.mp level with already | now
        · exact kept.honest _ _ _ _ found already
        · rw [← same (le_antisymm (rank_le_revision below) now)]
          exact kept.answered transmission answered
      · exact .inl rfl
    · refine .inl ?_
      change (Function.update net.stores _ _ _).acked id peer = _
      rw [Function.update_of_ne isSender]
  · intro revision listed
    apply (kept.announced revision listed).grow
    · exact Grows.of_same rfl groups
    · exact fun _ flying => .inl flying

theorem Kept.depart {net : GroupNet} (kept : net.Kept) (device : Ipv4Addr) :
    ({ net.setStore device {} with
      gone := Function.update net.gone device true } : GroupNet).Kept := by
  have stores (other : Ipv4Addr) (differs : other ≠ device) :
      Function.update net.stores device {} other = net.stores other :=
    Function.update_of_ne differs _ _
  have empty : Function.update net.stores device {} device = {} := Function.update_self ..
  have left : Function.update net.gone device true device = true := Function.update_self ..
  have grows : Grows net { net.setStore device {} with
      gone := Function.update net.gone device true } := by
    constructor
    · intro other already
      by_cases same : other = device
      · exact same ▸ left
      · exact (Function.update_of_ne same _ _).trans already
    · intro other id held found
      by_cases same : other = device
      · exact .inl (same ▸ left)
      · exact .inr ⟨held, (congrArg (fun store => store.groups id) (stores other same)).trans found,
          le_rfl⟩
  constructor
  · intro other id group found
    by_cases same : other = device
    · subst same
      change (Function.update net.stores other {} other).groups id = some group at found
      rw [empty] at found
      cases found
    · change (Function.update net.stores device {} other).groups id = some group at found
      rw [stores other same] at found
      exact kept.stored other id group found
  · exact fun group listed => (kept.author group listed).grow grows
  · exact kept.unique
  · exact kept.positive
  · exact kept.revised
  · exact kept.drafted
  · intro transmission listed
    obtain ⟨version, source⟩ := kept.sent transmission listed
    refine ⟨version, ?_⟩
    by_cases same : transmission.sender = device
    · exact .inl (same ▸ left)
    · rcases source with already | ⟨held, found, below, equal⟩
      · exact .inl (grows.gone _ already)
      · exact .inr ⟨held, (congrArg (fun store => store.groups transmission.group.id)
          (stores _ same)).trans found, below, equal⟩
  · exact fun transmission listed => (kept.answered transmission listed).grow grows
  · intro other id peer level
    by_cases same : other = device
    · subst same
      change 0 < (Function.update net.stores other {} other).acked id peer at level
      rw [empty] at level
      exact absurd level (lt_irrefl 0)
    · change 0 < (Function.update net.stores device {} other).acked id peer at level
      change ∃ held, (Function.update net.stores device {} other).groups id = some held ∧
        (Function.update net.stores device {} other).acked id peer ≤ held.revision
      rw [stores other same] at level ⊢
      exact kept.acked other id peer level
  · intro other peer id held found level
    by_cases same : other = device
    · subst same
      change (Function.update net.stores other {} other).groups id = some held at found
      rw [empty] at found
      cases found
    · change (Function.update net.stores device {} other).groups id = some held at found
      change held.revision ≤ (Function.update net.stores device {} other).acked id peer at level
      rw [stores other same] at found level
      exact (kept.honest other peer id held found level).grow grows
  · intro revision listed
    exact (kept.announced revision listed).grow grows (fun _ flying => .inl flying)

/-- Every careful step keeps the invariant. -/
theorem kept_step {hostOf : Ipv4Addr → Option Ipv4Addr} {event : GroupEvent} {net next : GroupNet}
    (kept : net.Kept) (careful : Careful event net) (happens : step hostOf event net = some next) :
    next.Kept := by
  cases event with
  | create author id name members ledger =>
      rw [step] at happens
      split at happens
      · cases happens
      · rename_i group made
        obtain ⟨isId, first, mine, member⟩ := groupCreate_ok made
        split at happens
        · cases happens
        · rename_i free
          cases happens
          simp only [not_or, not_exists, not_and] at free
          have unknown : ∀ held, (net.stores author).groups group.id = some held → False := by
            intro held found
            have listed := kept.stored author group.id held found
            refine free.2.2 held listed ?_
            rw [(net.stores author).keyed _ _ found, isId]
          refine kept.announce _ _ (by simpa using free.1) (fun held found => (unknown held found).elim)
            mine first.ge (fun _ => nofun) ⟨?_, ?_⟩
          · rintro device ⟨before, isBefore, _⟩
            cases isBefore
          · intro absent
            rw [mine] at absent
            exact absurd member absent
  | draft author id edit ledger =>
      rw [step] at happens
      split at happens
      · cases happens
      · split at happens
        · cases happens
        · split at happens
          · cases happens
          · rename_i before found after recipients made
            cases happens
            refine kept.of_same (fun _ => rfl) (fun _ _ _ => .inl rfl) rfl rfl ?_
              (fun _ flying => .inl flying) (fun _ done => done) kept.announced
            intro draft listed
            rcases List.mem_append.mp listed with old | new
            · exact kept.drafted draft old
            · rw [List.mem_singleton.mp new]
              exact compute_some made
  | publish draft =>
      rw [step] at happens
      split at happens
      · rename_i both
        obtain ⟨listed, here⟩ := both
        cases happens
        obtain ⟨sameId, next, mine⟩ := kept.drafted draft listed
        have current := careful.current
        have newer : ∀ held, (net.stores draft.author).groups draft.after.id = some held →
            held.revision < draft.after.revision := by
          intro held found
          rw [← sameId, current] at found
          cases found
          omega
        have told : ∀ device, device ∈ draft.targets ∨ net.gone device = true →
            (net.announce draft.author { before := some draft.before, after := draft.after }
              draft.targets).Told device draft.after := by
          rintro device (target | left)
          · refine .inr ⟨{ sender := draft.author, target := device, group := draft.after },
              List.mem_append_right _ (List.mem_map.mpr ⟨device, target, rfl⟩), rfl, rfl⟩
          · exact .inl (.inl left)
        have announced := kept.announce { before := some draft.before, after := draft.after }
          draft.targets here newer mine (by simp only [next]; omega) (by rintro _ ⟨⟩; exact ⟨sameId, next⟩) ?_
        · refine announced.of_same (fun _ => rfl) (fun _ _ _ => .inl rfl) rfl rfl ?_
            (fun _ flying => .inl flying) (fun _ done => done) announced.announced
          exact fun other there => kept.drafted other (List.mem_of_mem_erase there)
        · refine ⟨?_, fun left => ?_⟩
          · rintro device ⟨before, isBefore, was, isOut⟩
            cases isBefore
            rcases careful.takenOut device was isOut with rfl | sent
            · refine .inl (.inr ⟨draft.after, ?_, le_rfl⟩)
              rw [announce_groups _ newer, if_pos ⟨rfl, rfl⟩]
            · exact told device sent
          · rw [mine] at left
            rcases careful.leftBehind left with empty | ⟨device, member, sent⟩
            · exact .inl empty
            · exact .inr ⟨device, member, told device sent⟩
      · cases happens
  | sync device online now retryAfter =>
      rw [step] at happens
      split at happens
      · cases happens
      · cases happens
        have same : ∀ other, ((net.setStore device ((net.stores device).pendingSync device online
            now retryAfter (hostOf device)).2).stores other).groups =
              (net.stores other).groups :=
          setStore_view GroupStore.groups rfl
        refine kept.of_same same ?_ rfl rfl kept.drafted ?_ (fun _ done => done) ?_
        · intro other id peer
          exact .inl (@setStore_view _ (fun store => store.acked id peer) net device
            ((net.stores device).pendingSync device online now retryAfter (hostOf device)).2 rfl
            other)
        · intro transmission flying
          rcases List.mem_append.mp flying with old | new
          · exact .inl old
          · obtain ⟨⟨peer, group⟩, due, rfl⟩ := List.mem_map.mp new
            have found := (GroupStore.mem_pendingSync.mp due).1
            exact .inr ⟨kept.stored _ _ _ found, found⟩
        · intro revision listed
          apply (kept.announced revision listed).grow
          · exact Grows.of_same rfl same
          · exact fun transmission flying => .inl (List.mem_append_left _ flying)
  | deliver transmission =>
      rw [step] at happens
      split at happens
      · rename_i both
        obtain ⟨flying, here⟩ := both
        dsimp only at happens
        rw [Careful] at careful
        split at happens
        · rename_i refused
          cases happens
          rw [refused] at careful
          exact kept.lose careful
        · rename_i store taken
          cases happens
          rw [taken] at careful
          exact kept.deliver flying taken careful
      · cases happens
  | acknowledge transmission =>
      rw [step] at happens
      split at happens
      · rename_i both
        cases happens
        exact kept.acknowledge both.1 both.2
      · cases happens
  | lose transmission =>
      rw [step] at happens
      split at happens
      · cases happens
        exact kept.lose careful
      · cases happens
  | loseAnswer transmission =>
      rw [step] at happens
      split at happens
      · cases happens
        exact kept.of_same (fun _ => rfl) (fun _ _ _ => .inl rfl) rfl rfl kept.drafted
          (fun _ there => .inl there) (fun _ done => List.mem_of_mem_erase done) kept.announced
      · cases happens
  | depart device =>
      cases happens
      exact kept.depart device

/-- Devices that are gone hold nothing. -/
def Emptied (net : GroupNet) : Prop :=
  ∀ device, net.gone device = true → ∀ id, (net.stores device).groups id = none

theorem Emptied.setStore {net : GroupNet} (emptied : net.Emptied) {device : Ipv4Addr}
    (store : GroupStore) (here : net.gone device = false) : (net.setStore device store).Emptied := by
  intro other left id
  by_cases same : other = device
  · subst same
    exact absurd (here.symm.trans left) Bool.false_ne_true
  · change (Function.update net.stores device store other).groups id = none
    rw [Function.update_of_ne same]
    exact emptied other left id

theorem emptied_step {hostOf : Ipv4Addr → Option Ipv4Addr} {event : GroupEvent}
    {net next : GroupNet} (emptied : net.Emptied) (happens : step hostOf event net = some next) :
    next.Emptied := by
  cases event with
  | create author id name members ledger =>
      rw [step] at happens
      split at happens
      · cases happens
      · split at happens
        · cases happens
        · rename_i free
          cases happens
          exact emptied.setStore _ (by simpa using fun left => free (.inl left))
  | draft author id edit ledger =>
      rw [step] at happens
      split at happens
      · cases happens
      · split at happens
        · cases happens
        · split at happens
          · cases happens
          · cases happens
            exact emptied
  | publish draft =>
      rw [step] at happens
      split at happens
      · rename_i both
        cases happens
        exact emptied.setStore _ both.2
      · cases happens
  | sync device online now retryAfter =>
      rw [step] at happens
      split at happens
      · cases happens
      · rename_i here
        cases happens
        exact emptied.setStore _ (Bool.eq_false_iff.mpr here)
  | deliver transmission =>
      rw [step] at happens
      split at happens
      · rename_i both
        dsimp only at happens
        split at happens
        · cases happens
          exact emptied
        · cases happens
          exact emptied.setStore _ both.2
      · cases happens
  | acknowledge transmission =>
      rw [step] at happens
      split at happens
      · rename_i both
        cases happens
        exact emptied.setStore _ both.2
      · cases happens
  | lose transmission =>
      rw [step] at happens
      split at happens
      · cases happens
        exact emptied
      · cases happens
  | loseAnswer transmission =>
      rw [step] at happens
      split at happens
      · cases happens
        exact emptied
      · cases happens
  | depart device =>
      cases happens
      intro other left id
      change ((Function.update net.stores device {}) other).groups id = none
      by_cases same : other = device
      · subst same
        rw [Function.update_self]
      · rw [Function.update_of_ne same]
        exact emptied other ((Function.update_of_ne same _ _).symm.trans left) id

/-! ### How versions come from each other -/

/-- The later version was made from the earlier one, in one edit or in several. -/
def Made (net : GroupNet) : GroupInfo → GroupInfo → Prop :=
  Relation.TransGen (fun earlier later =>
    ({ before := some earlier, after := later } : GroupRevision) ∈ net.history)

/-- Two versions of a group that disagree on somebody whom an edit takes out of it are not
concurrent. -/
def Agreed (net : GroupNet) : Prop :=
  ∀ one ∈ net.versions, ∀ two ∈ net.versions, one.id = two.id →
    ∀ revision ∈ net.history, revision.after.id = one.id → ∀ device, TakesOut revision device →
      device ∈ one.members → device ∉ two.members → net.Made one two ∨ net.Made two one

theorem Kept.made_newer {net : GroupNet} (kept : net.Kept) {earlier later : GroupInfo}
    (made : net.Made earlier later) : earlier.id = later.id ∧ earlier.rank < later.rank := by
  induction made with
  | single edit =>
      obtain ⟨sameId, next⟩ := kept.revised _ edit _ rfl
      exact ⟨sameId, rank_lt_of_revision (next ▸ Nat.lt_succ_self _)⟩
  | tail _ edit ih =>
      obtain ⟨sameId, next⟩ := kept.revised _ edit _ rfl
      exact ⟨ih.1.trans sameId, ih.2.trans (rank_lt_of_revision (next ▸ Nat.lt_succ_self _))⟩

/-- Between a version that lists a device and one made from it that does not, an edit takes the
device out. -/
theorem Kept.takenOut {net : GroupNet} (kept : net.Kept) {earlier later : GroupInfo}
    (made : net.Made earlier later) {device : Ipv4Addr} (was : device ∈ earlier.members)
    (isOut : device ∉ later.members) :
    ∃ revision ∈ net.history, TakesOut revision device ∧ revision.after.id = earlier.id ∧
      earlier.rank < revision.after.rank := by
  induction made with
  | single edit =>
      obtain ⟨sameId, newer⟩ := kept.made_newer (.single edit)
      exact ⟨_, edit, ⟨_, rfl, was, isOut⟩, sameId.symm, newer⟩
  | @tail middle last before edit ih =>
      by_cases still : device ∈ middle.members
      · obtain ⟨sameId, newer⟩ := kept.made_newer (before.tail edit)
        exact ⟨_, edit, ⟨_, rfl, still, isOut⟩, sameId.symm, newer⟩
      · exact ih still

/-! ### Convergence -/

/-- Nothing is under way, and nothing is due at a member of the version while all of them are online
and may be tried again. -/
structure Quiet (hostOf : Ipv4Addr → Option Ipv4Addr) (online : List Ipv4Addr)
    (now retryAfter : Nat) (winner : GroupInfo) (net : GroupNet) : Prop where
  delivered : net.inFlight = []
  present : ∀ device ∈ winner.members, net.gone device = false ∧ device ∈ online
  elapsed : ∀ device ∈ winner.members, ∀ peer ∈ winner.members,
    ((net.stores device).lastAttempt winner.id peer).all (fun at_ => retryAfter ≤ now - at_) = true
  synced : ∀ device ∈ winner.members,
    ((net.stores device).pendingSync device online now retryAfter (hostOf device)).1 = []

/-- The highest version of a group. -/
def Wins (net : GroupNet) (winner : GroupInfo) : Prop :=
  winner ∈ net.versions ∧
    ∀ other ∈ net.versions, other.id = winner.id → other.rank ≤ winner.rank

/-- All members of a version hold it, and who was taken out holds none that lists them. -/
def Converged (net : GroupNet) (winner : GroupInfo) : Prop :=
  (∀ device ∈ winner.members, (net.stores device).groups winner.id = some winner) ∧
    ∀ revision ∈ net.history, revision.after.id = winner.id → ∀ device, TakesOut revision device →
      device ∉ winner.members → ∀ held, (net.stores device).groups winner.id = some held →
        device ∉ held.members

/-- Who is reached by the highest version holds it. -/
theorem Kept.holds_winner {net : GroupNet} (kept : net.Kept) {winner : GroupInfo}
    (wins : net.Wins winner) {device : Ipv4Addr} (here : net.gone device = false)
    (reached : net.Reached device winner) :
    (net.stores device).groups winner.id = some winner := by
  rcases reached with left | ⟨held, found, below⟩
  · rw [here] at left
    cases left
  · have version := kept.stored _ _ _ found
    have sameId := (net.stores device).keyed _ _ found
    have above := wins.2 held version sameId
    rw [← kept.unique held version winner wins.1 sameId (le_antisymm above below)]
    exact (congrArg _ sameId).trans found

theorem reached_of_told {net : GroupNet} {device : Ipv4Addr} {group : GroupInfo}
    (delivered : net.inFlight = []) (told : net.Told device group) : net.Reached device group := by
  rcases told with reached | ⟨transmission, flying, _⟩
  · exact reached
  · rw [delivered] at flying
    exact absurd flying List.not_mem_nil

/-- Some member of the highest version holds it. -/
theorem Kept.held_somewhere {net : GroupNet} (kept : net.Kept) {winner : GroupInfo}
    (wins : net.Wins winner) (delivered : net.inFlight = [])
    (present : ∀ device ∈ winner.members, net.gone device = false)
    (some_ : winner.members ≠ []) :
    ∃ device ∈ winner.members, (net.stores device).groups winner.id = some winner := by
  by_cases mine : winner.updatedBy ∈ winner.members
  · exact ⟨_, mine, kept.holds_winner wins (present _ mine) (kept.author winner wins.1)⟩
  · obtain ⟨revision, made, rfl⟩ := List.mem_map.mp wins.1
    rcases (kept.announced revision made).2 mine with empty | ⟨device, member, told⟩
    · exact absurd empty some_
    · exact ⟨device, member, kept.holds_winner wins (present _ member)
        (reached_of_told delivered told)⟩

/-- Along careful steps the groups converge. -/
theorem converges {hostOf : Ipv4Addr → Option Ipv4Addr} {events : List GroupEvent} {net : GroupNet}
    {online : List Ipv4Addr} {now retryAfter : Nat} {winner : GroupInfo}
    (happens : Runs.run (step hostOf) events {} = some net)
    (careful : Runs.Along (step hostOf) Careful events {}) (agreed : net.Agreed)
    (wins : net.Wins winner) (quiet : net.Quiet hostOf online now retryAfter winner) :
    net.Converged winner := by
  obtain ⟨kept, emptied⟩ := Runs.run_invariant (fun net => net.Kept ∧ net.Emptied)
    (fun _ _ _ both careful happens =>
      ⟨kept_step both.1 careful happens, emptied_step both.2 happens⟩)
    ⟨kept_start, fun _ _ _ => rfl⟩ careful happens
  have present := fun device member => (quiet.present device member).1
  constructor
  · intro device member
    obtain ⟨holder, holds, found⟩ := kept.held_somewhere wins quiet.delivered present
      (List.ne_nil_of_mem member)
    by_cases same : device = holder
    · rw [same]
      exact found
    · -- Nothing is due for the device at the holder, so it has acknowledged the version.
      refine kept.holds_winner wins (present device member)
        (kept.honest holder device winner.id winner found ?_)
      by_contra behind
      have due : (device, winner) ∈ ((net.stores holder).pendingSync holder online now retryAfter
          (hostOf holder)).1 := by
        refine GroupStore.mem_pendingSync.mpr ⟨found, holds,
          GroupStore.mem_syncTargets member same, ?_⟩
        unfold GroupStore.isDue
        rw [List.contains_iff_mem.mpr (quiet.present device member).2, Bool.true_and,
          decide_eq_true (not_le.mp behind), Bool.true_and]
        exact quiet.elapsed holder holds device member
      rw [quiet.synced holder holds] at due
      exact absurd due List.not_mem_nil
  · intro revision edited sameId device out isOut held found lists
    have version := kept.stored _ _ _ found
    have isHeld := (net.stores device).keyed _ _ found
    rcases agreed held version winner wins.1 isHeld revision edited (sameId.trans isHeld.symm)
      device out lists isOut with made | made
    · obtain ⟨last, edited, out, lastId, newer⟩ := kept.takenOut made lists isOut
      rcases reached_of_told quiet.delivered ((kept.announced last edited).1 device out) with
        left | ⟨current, found', below⟩
      · exact absurd ((emptied device left winner.id).symm.trans found) nofun
      · rw [lastId, isHeld] at found'
        cases found'.symm.trans found
        exact absurd newer (not_lt.mpr below)
    · exact absurd (kept.made_newer made).2 (not_lt.mpr (wins.2 held version isHeld))

/-! ### Runs -/

/-- Over the list, not over all addresses. -/
instance (priority := 2000) {devices : List Ipv4Addr} {meets : Ipv4Addr → Prop}
    [DecidablePred meets] : Decidable (∀ device ∈ devices, meets device) :=
  List.decidableBAll meets devices

instance (priority := 2000) {devices : List Ipv4Addr} {meets : Ipv4Addr → Prop}
    [DecidablePred meets] : Decidable (∃ device ∈ devices, meets device) :=
  List.decidableBEx meets devices

instance {net : GroupNet} {device : Ipv4Addr} {group : GroupInfo} :
    Decidable (net.Reached device group) :=
  decidable_of_iff (net.gone device = true ∨
      ∃ held ∈ (net.stores device).groups group.id, group.rank ≤ held.rank) Iff.rfl

instance {net : GroupNet} {device : Ipv4Addr} {group : GroupInfo} :
    Decidable (net.Told device group) :=
  inferInstanceAs (Decidable (_ ∨ ∃ transmission ∈ net.inFlight, _))

theorem announced_iff {net : GroupNet} {revision : GroupRevision} :
    net.Announced revision ↔
      (∀ before ∈ revision.before, ∀ device ∈ before.members, device ∉ revision.after.members →
        net.Told device revision.after) ∧
      (revision.after.updatedBy ∉ revision.after.members →
        revision.after.members = [] ∨ ∃ device ∈ revision.after.members,
          net.Told device revision.after) := by
  refine and_congr_left' ⟨fun told before isBefore device was isOut => ?_, fun told => ?_⟩
  · exact told device ⟨before, isBefore, was, isOut⟩
  · rintro device ⟨before, isBefore, was, isOut⟩
    exact told before isBefore device was isOut

instance {net : GroupNet} {revision : GroupRevision} : Decidable (net.Announced revision) :=
  decidable_of_iff _ announced_iff.symm

instance {net : GroupNet} {transmission : Transmission} : Decidable (net.Spared transmission) :=
  inferInstanceAs (Decidable (∀ revision ∈ net.history, _))

instance {net : GroupNet} {transmission : Transmission} : Decidable (net.NoTie transmission) :=
  decidable_of_iff (∀ held ∈ (net.stores transmission.target).groups transmission.group.id,
    held.revision = transmission.group.revision → held = transmission.group) Iff.rfl

instance {net : GroupNet} {draft : GroupDraft} : Decidable (net.CarefulDraft draft) :=
  decidable_of_iff ((net.stores draft.author).groups draft.before.id = some draft.before ∧
      (∀ device ∈ draft.before.members, device ∉ draft.after.members →
        device = draft.author ∨ device ∈ draft.targets ∨ net.gone device = true) ∧
      (draft.author ∉ draft.after.members → draft.after.members = [] ∨
        ∃ device ∈ draft.after.members, device ∈ draft.targets ∨ net.gone device = true))
    ⟨fun all => ⟨all.1, all.2.1, all.2.2⟩,
      fun careful => ⟨careful.current, careful.takenOut, careful.leftBehind⟩⟩

instance : ∀ event net, Decidable (Careful event net)
  | .publish draft, net => inferInstanceAs (Decidable (net.CarefulDraft draft))
  | .deliver transmission, net =>
      match taken : receive (net.stores transmission.target) transmission.sender
          transmission.group with
      | some _ => decidable_of_iff (net.NoTie transmission) (by rw [Careful, taken])
      | none => decidable_of_iff (net.Spared transmission) (by rw [Careful, taken])
  | .lose transmission, net => inferInstanceAs (Decidable (net.Spared transmission))
  | .create .., _ => isTrue trivial
  | .draft .., _ => isTrue trivial
  | .sync .., _ => isTrue trivial
  | .acknowledge _, _ => isTrue trivial
  | .loseAnswer _, _ => isTrue trivial
  | .depart _, _ => isTrue trivial

instance {hostOf : Ipv4Addr → Option Ipv4Addr} {online : List Ipv4Addr} {now retryAfter : Nat}
    {winner : GroupInfo} {net : GroupNet} :
    Decidable (net.Quiet hostOf online now retryAfter winner) :=
  decidable_of_iff (net.inFlight = [] ∧
      (∀ device ∈ winner.members, net.gone device = false ∧ device ∈ online) ∧
      (∀ device ∈ winner.members, ∀ peer ∈ winner.members,
        ((net.stores device).lastAttempt winner.id peer).all
          (fun at_ => retryAfter ≤ now - at_) = true) ∧
      ∀ device ∈ winner.members,
        ((net.stores device).pendingSync device online now retryAfter (hostOf device)).1 = [])
    ⟨fun all => ⟨all.1, all.2.1, all.2.2.1, all.2.2.2⟩,
      fun quiet => ⟨quiet.delivered, quiet.present, quiet.elapsed, quiet.synced⟩⟩

instance {net : GroupNet} {winner : GroupInfo} : Decidable (net.Wins winner) :=
  inferInstanceAs (Decidable (_ ∧ ∀ other ∈ net.versions, _))

def firstMember : Ipv4Addr := 0x0A630001#32
def secondMember : Ipv4Addr := 0x0A630002#32
def thirdMember : Ipv4Addr := 0x0A630003#32

def trio : List GroupLedgerEntry :=
  [{ ip := firstMember, online := true }, { ip := secondMember, online := true },
    { ip := thirdMember, online := true }]

def trioGroup : GroupInfo where
  id := "00000000000000000000000000000001"
  name := "family"
  members := [firstMember, secondMember, thirdMember]
  revision := 1
  updatedBy := firstMember

/-- The third member is taken out. -/
def pairGroup : GroupInfo := { trioGroup with members := [firstMember, secondMember], revision := 2 }

def handOver (sender target : Ipv4Addr) (group : GroupInfo) : List GroupEvent :=
  let transmission : Transmission := { sender := sender, target := target, group := group }
  [.deliver transmission, .acknowledge transmission]

def founded : List GroupEvent :=
  .create firstMember trioGroup.id "family" [secondMember, thirdMember] trio ::
    handOver firstMember secondMember trioGroup ++ handOver firstMember thirdMember trioGroup

/-- The third member is taken out, and all who are concerned hear of it. -/
def takenOutEvents : List GroupEvent :=
  founded ++
    [.draft firstMember trioGroup.id (.update none [] [thirdMember]) trio,
      .publish { author := firstMember, before := trioGroup, after := pairGroup
                 targets := [secondMember, thirdMember] }] ++
    handOver firstMember secondMember pairGroup ++ handOver firstMember thirdMember pairGroup

def nobody : Ipv4Addr → Option Ipv4Addr := fun _ => none

def trioHistory : List GroupRevision :=
  [{ before := none, after := trioGroup }, { before := some trioGroup, after := pairGroup }]

theorem converges_takenOut :
    ∃ net, Runs.run (step nobody) takenOutEvents {} = some net ∧ net.history = trioHistory ∧
      net.Converged pairGroup := by
  have ends : (Runs.run (step nobody) takenOutEvents {}).map (fun net =>
      (net.history, decide (net.Wins pairGroup ∧
        net.Quiet nobody [firstMember, secondMember] 60 30 pairGroup))) =
      some (trioHistory, true) := by decide
  obtain ⟨net, happens, facts⟩ := Option.map_eq_some_iff.mp ends
  obtain ⟨history, decided⟩ := Prod.mk.inj facts
  obtain ⟨wins, quiet⟩ := of_decide_eq_true decided
  have careful : Runs.Along (step nobody) Careful takenOutEvents {} := by decide
  have made : net.Made trioGroup pairGroup :=
    .single (history ▸ List.mem_cons_of_mem _ List.mem_cons_self)
  refine ⟨net, happens, history, converges happens careful ?_ wins quiet⟩
  have versions : net.versions = [trioGroup, pairGroup] := by
    rw [GroupNet.versions, history]
    rfl
  intro one listed two listed' _ _ _ _ device _ was isOut
  rw [versions] at listed listed'
  simp only [List.mem_cons, List.not_mem_nil, or_false] at listed listed'
  rcases listed with rfl | rfl
  · rcases listed' with rfl | rfl
    · exact absurd was isOut
    · exact .inl made
  · rcases listed' with rfl | rfl
    · exact .inr made
    · exact absurd was isOut

/-! ### A tie -/

def renamed (author : Ipv4Addr) (name : String) : GroupInfo :=
  { trioGroup with
    name := name
    members := [firstMember, secondMember]
    revision := 2
    updatedBy := author }

def pairFounded : GroupInfo := { trioGroup with members := [firstMember, secondMember] }

/-- Both members rename the group; the first one's update reaches the second, whose own is lost. -/
def tieEvents : List GroupEvent :=
  .create firstMember trioGroup.id "family" [secondMember] trio ::
    handOver firstMember secondMember pairFounded ++
    [.draft firstMember trioGroup.id (.update (some "home") [] []) trio,
      .draft secondMember trioGroup.id (.update (some "house") [] []) trio,
      .publish { author := firstMember, before := pairFounded, after := renamed firstMember "home"
                 targets := [secondMember] },
      .publish { author := secondMember, before := pairFounded
                 after := renamed secondMember "house", targets := [firstMember] }] ++
    handOver firstMember secondMember (renamed firstMember "home") ++
    [.lose { sender := secondMember, target := firstMember
             group := renamed secondMember "house" }]

/-- The second member takes the first one for somebody who has the newest version. -/
theorem diverges :
    ¬ ∀ (hostOf : Ipv4Addr → Option Ipv4Addr) (events : List GroupEvent) (net : GroupNet)
        (online : List Ipv4Addr) (now retryAfter : Nat) (winner : GroupInfo),
      Runs.run (step hostOf) events {} = some net → net.Wins winner →
      net.Quiet hostOf online now retryAfter winner → net.Converged winner := by
  have ends : (Runs.run (step nobody) tieEvents {}).map (fun net =>
      ((net.stores firstMember).groups trioGroup.id,
        decide (net.Wins (renamed secondMember "house") ∧
          net.Quiet nobody [firstMember, secondMember] 60 30 (renamed secondMember "house")))) =
      some (some (renamed firstMember "home"), true) := by decide
  obtain ⟨net, happens, facts⟩ := Option.map_eq_some_iff.mp ends
  obtain ⟨held, decided⟩ := Prod.mk.inj facts
  obtain ⟨wins, quiet⟩ := of_decide_eq_true decided
  intro always
  have converged := always _ _ net _ _ _ _ happens wins quiet
  exact absurd (held.symm.trans (converged.1 firstMember (by decide))) (by decide)

end GroupNet

end PeerCove
