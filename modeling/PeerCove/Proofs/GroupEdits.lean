/-
Module: PeerCove.Proofs.GroupEdits
Layer: Proofs
Purpose: When the edits of a device to its groups take effect, whatever updates come in between.
Trusted boundary: none
Main exports: Changeable, GroupDevice.Effective, GroupDevice.Undisturbed, edits_effective_iff
-/
import PeerCove.Chat.GroupEdits
import PeerCove.Library.Runs
import PeerCove.Proofs.GroupGossip

namespace PeerCove

/-- Every later edit of this version makes a newer one. -/
def Changeable (group : GroupInfo) : Prop :=
  ∀ selfIp name members, (group.revise selfIp name members).wrapped.newerThan group = true

theorem newerThan_of_revision {group current : GroupInfo}
    (more : current.revision < group.revision) : group.newerThan current = true := by
  rw [GroupInfo.newerThan, decide_eq_true more, Bool.true_or]

theorem wrapped_of_le {group : GroupInfo} (fits : group.revision ≤ U64_MAX) :
    group.wrapped = group := by
  rw [GroupInfo.wrapped, Nat.mod_eq_of_lt (Nat.lt_succ_of_le fits)]

theorem wrapped_le (group : GroupInfo) : group.wrapped.revision ≤ U64_MAX :=
  Nat.le_of_lt_succ (Nat.mod_lt _ (Nat.succ_pos _))

/-- Only the highest revision cannot be edited any more. -/
theorem changeable_iff {group : GroupInfo} (fits : group.revision ≤ U64_MAX) :
    Changeable group ↔ group.revision < U64_MAX := by
  constructor
  · intro changeable
    apply Classical.byContradiction
    intro highest
    have top : group.revision = U64_MAX := Nat.le_antisymm fits (Nat.le_of_not_lt highest)
    have newer := changeable 0 "" []
    have wraps : (group.revise 0 "" []).wrapped.revision = 0 := by
      change (group.revision + 1) % (U64_MAX + 1) = 0
      rw [top, Nat.mod_self]
    rw [GroupInfo.newerThan, wraps, top] at newer
    exact absurd newer (by simp [U64_MAX])
  · intro below selfIp name members
    have next : (group.revise selfIp name members).wrapped = group.revise selfIp name members :=
      wrapped_of_le below
    rw [next]
    exact newerThan_of_revision (Nat.lt_succ_self _)

namespace GroupDevice

variable {selfIp : Ipv4Addr} {event : GroupDeviceEvent} {device next : GroupDevice}

/-- No revision overflowed, every edit that reported success was stored, and every group can still
be changed. -/
structure Effective (device : GroupDevice) : Prop where
  fits : device.overflowed = false
  stored : ∀ report ∈ device.reports, report.stored = true
  changeable : ∀ id group, device.store.groups id = some group → Changeable group

/-- A version that is received and taken has not the highest revision.  Between the locks of an
edit nobody stores a higher revision than the new one, or the same one of a higher address, and
the new one is not the highest. -/
def Undisturbed (selfIp : Ipv4Addr) : GroupDeviceEvent → GroupDevice → Prop
  | .create .., _ => True
  | .read .., _ => True
  | .write edit, device =>
      (∀ current, device.store.groups edit.before.id = some current →
        current.revision < edit.before.revision + 1 ∨
          (current.revision = edit.before.revision + 1 ∧
            current.updatedBy.toNat < selfIp.toNat)) ∧
        edit.before.revision + 1 < U64_MAX
  | .receive sender group, device =>
      (GroupNet.receive device.store sender group).isSome = true →
        device.store.isNewer group = true → group.revision < U64_MAX

/-- What every state keeps: revisions are 64-bit numbers, and edits that did not overflow are the
next revision of what they read. -/
structure Sized (selfIp : Ipv4Addr) (device : GroupDevice) : Prop where
  stored : ∀ id group, device.store.groups id = some group → group.revision ≤ U64_MAX
  pending : ∀ edit ∈ device.pending, edit.after.revision ≤ U64_MAX ∧
    edit.after.id = edit.before.id ∧ edit.after.updatedBy = selfIp ∧
      (device.overflowed = false → edit.after.revision = edit.before.revision + 1)

/-- Storing a version keeps the sizes. -/
theorem apply_sized {store : GroupStore} {group : GroupInfo}
    (sized : ∀ id held, store.groups id = some held → held.revision ≤ U64_MAX)
    (fits : group.revision ≤ U64_MAX) :
    ∀ id held, (store.apply group).1.groups id = some held → held.revision ≤ U64_MAX := by
  intro id held found
  by_cases same : id = group.id
  · subst same
    rcases GroupStore.apply_self store group with ⟨now, -⟩ | ⟨current, before, -, now⟩
    · cases now.symm.trans found
      exact fits
    · cases now.symm.trans found
      exact sized _ _ before
  · rw [GroupStore.apply_other same] at found
    exact sized id held found

theorem commit_sized (sized : Sized selfIp device) {group : GroupInfo}
    (fits : group.revision ≤ U64_MAX) : Sized selfIp (device.commit group) where
  stored := apply_sized sized.stored fits
  pending := sized.pending

theorem step_sized (sized : Sized selfIp device)
    (happens : step selfIp event device = some next) : Sized selfIp next := by
  cases event with
  | create id name members ledger =>
      rw [step] at happens
      split at happens
      · cases happens
      · rename_i group made
        split at happens
        · cases happens
        · cases happens
          apply commit_sized sized
          rw [(GroupNet.groupCreate_ok made).2.1]
          decide
  | read id edit ledger =>
      rw [step] at happens
      split at happens
      · cases happens
      · rename_i before found
        split at happens
        · cases happens
        · rename_i after recipients made
          cases happens
          obtain ⟨sameId, nextRevision, author⟩ := GroupNet.compute_some made
          refine ⟨sized.stored, fun pending listed => ?_⟩
          rcases List.mem_append.mp listed with earlier | new
          · obtain ⟨fits, id, author, inner⟩ := sized.pending pending earlier
            exact ⟨fits, id, author, fun fine => inner (Bool.or_eq_false_iff.mp fine).1⟩
          · cases List.mem_singleton.mp new
            refine ⟨wrapped_le after, sameId.symm, author, fun fine => ?_⟩
            have inside : after.revision ≤ U64_MAX :=
              Nat.le_of_not_lt (of_decide_eq_false (Bool.or_eq_false_iff.mp fine).2)
            change after.wrapped.revision = before.revision + 1
            rw [wrapped_of_le inside]
            exact nextRevision
  | write edit =>
      rw [step] at happens
      split at happens
      · rename_i listed
        cases happens
        have committed := commit_sized sized (sized.pending edit listed).1
        exact ⟨committed.stored, fun pending left =>
          sized.pending pending (List.mem_of_mem_erase left)⟩
      · cases happens
  | receive sender group =>
      rw [step] at happens
      split at happens
      · cases happens
      · rename_i fits
        split at happens
        · cases happens
          exact sized
        · rename_i store taken
          cases happens
          refine ⟨?_, sized.pending⟩
          rw [GroupNet.receive_some taken]
          exact apply_sized sized.stored (Nat.le_of_not_lt fits)

/-! ### One event -/

theorem apply_taken (store : GroupStore) (group : GroupInfo) :
    (store.apply group).2 = store.isNewer group := by
  unfold GroupStore.apply
  cases store.isNewer group <;> rfl

/-- The store can still be changed after a version was applied, when that one can if it was taken. -/
theorem apply_changeable {store : GroupStore} (group : GroupInfo)
    (before : ∀ id held, store.groups id = some held → Changeable held) :
    (∀ id held, (store.apply group).1.groups id = some held → Changeable held) ↔
      (store.isNewer group = true → Changeable group) := by
  unfold GroupStore.apply
  cases newer : store.isNewer group with
  | false => exact ⟨fun _ impossible => (nomatch impossible), fun _ => before⟩
  | true =>
      have here : (store.insert group).groups group.id = some group := Function.update_self ..
      constructor
      · exact fun after _ => after group.id group here
      · intro changeable id held found
        by_cases same : id = group.id
        · subst same
          cases here.symm.trans found
          exact changeable rfl
        · have kept : (store.insert group).groups id = store.groups id :=
            Function.update_of_ne same _ _
          exact before id held (kept.symm.trans found)

/-- A commit is effective when the version is newer and not the last one possible. -/
theorem commit_effective (effective : Effective device) (group : GroupInfo) :
    Effective (device.commit group) ↔
      device.store.isNewer group = true ∧ Changeable group := by
  constructor
  · intro after
    have newer : device.store.isNewer group = true := by
      rw [← apply_taken]
      exact after.stored _ (List.mem_append_right _ (List.mem_singleton.mpr rfl))
    exact ⟨newer, (apply_changeable group effective.changeable).mp after.changeable newer⟩
  · intro both
    refine ⟨effective.fits, fun report listed => ?_, ?_⟩
    · rcases List.mem_append.mp listed with earlier | new
      · exact effective.stored report earlier
      · rw [List.mem_singleton.mp new]
        exact (apply_taken device.store group).trans both.1
    · exact (apply_changeable group effective.changeable).mpr (fun _ => both.2)

/-- An edit is newer than what is stored when nobody was ahead of it. -/
theorem isNewer_iff {store : GroupStore} {edit : PendingEdit}
    (sameId : edit.after.id = edit.before.id) (author : edit.after.updatedBy = selfIp)
    (next : edit.after.revision = edit.before.revision + 1) :
    store.isNewer edit.after = true ↔
      ∀ current, store.groups edit.before.id = some current →
        current.revision < edit.before.revision + 1 ∨
          (current.revision = edit.before.revision + 1 ∧
            current.updatedBy.toNat < selfIp.toNat) := by
  rw [GroupStore.isNewer, sameId]
  cases store.groups edit.before.id with
  | none => exact ⟨fun _ current found => (nomatch found), fun _ => rfl⟩
  | some current =>
      have newer : edit.after.newerThan current = true ↔
          current.revision < edit.before.revision + 1 ∨
            (current.revision = edit.before.revision + 1 ∧
              current.updatedBy.toNat < selfIp.toNat) := by
        rw [GroupInfo.newerThan, Bool.or_eq_true, Bool.and_eq_true, decide_eq_true_iff,
          decide_eq_true_iff, decide_eq_true_iff, next, author]
        exact or_congr Iff.rfl (and_congr eq_comm Iff.rfl)
      constructor
      · rintro taken _ ⟨⟩
        exact newer.mp taken
      · exact fun behind => newer.mpr (behind current rfl)

theorem step_effective (sized : Sized selfIp device) (effective : Effective device)
    (happens : step selfIp event device = some next) :
    Effective next ↔ Undisturbed selfIp event device := by
  cases event with
  | create id name members ledger =>
      rw [step] at happens
      split at happens
      · cases happens
      · rename_i group made
        obtain ⟨sameId, first, -⟩ := GroupNet.groupCreate_ok made
        split at happens
        · cases happens
        · rename_i unknown
          cases happens
          refine iff_true_intro ((commit_effective effective group).mpr ⟨?_, ?_⟩)
          · rw [GroupStore.isNewer, sameId, Option.not_isSome_iff_eq_none.mp unknown]
          · refine (changeable_iff ?_).mpr ?_
            · rw [first]
              decide
            · rw [first]
              decide
  | read id edit ledger =>
      rw [step] at happens
      split at happens
      · cases happens
      · rename_i before found
        split at happens
        · cases happens
        · rename_i after recipients made
          cases happens
          have below : before.revision < U64_MAX :=
            (changeable_iff (sized.stored id before found)).mp (effective.changeable id before found)
          have inside : ¬ after.revision > U64_MAX := by
            rw [(GroupNet.compute_some made).2.1]
            exact Nat.not_lt_of_le below
          refine iff_true_intro ⟨?_, effective.stored, effective.changeable⟩
          exact Bool.or_eq_false_iff.mpr ⟨effective.fits, decide_eq_false inside⟩
  | write edit =>
      rw [step] at happens
      split at happens
      · rename_i listed
        cases happens
        obtain ⟨fits, sameId, author, follows⟩ := sized.pending edit listed
        have revision := follows effective.fits
        have committed := commit_effective effective edit.after
        rw [isNewer_iff sameId author revision, changeable_iff fits, revision] at committed
        rw [Undisturbed, ← committed]
        exact ⟨fun after => ⟨after.fits, after.stored, after.changeable⟩,
          fun after => ⟨after.fits, after.stored, after.changeable⟩⟩
      · cases happens
  | receive sender group =>
      rw [step] at happens
      split at happens
      · cases happens
      · rename_i fits
        rw [Undisturbed]
        split at happens
        · rename_i refused
          cases happens
          rw [refused]
          exact ⟨fun _ impossible => (nomatch impossible), fun _ => effective⟩
        · rename_i store taken
          cases happens
          rw [taken, ← changeable_iff (Nat.le_of_not_lt fits)]
          have marked : ∀ id held, (device.store.markAcked group.id sender group.revision).groups id =
              some held → Changeable held := effective.changeable
          have applied := apply_changeable group marked
          rw [← GroupNet.receive_some taken] at applied
          constructor
          · exact fun after _ newer => applied.mp after.changeable newer
          · exact fun changeable =>
              ⟨effective.fits, effective.stored, applied.mpr (changeable rfl)⟩

/-- In a run of edits and received updates in any order, every edit that reports success is stored,
no revision overflows and every group can still be changed exactly when nothing disturbs a step. -/
theorem edits_effective_iff {events : List GroupDeviceEvent} {final : GroupDevice}
    (reached : Runs.run (step selfIp) events {} = some final) :
    (∀ done, done <+: events → ∀ middle, Runs.run (step selfIp) done {} = some middle →
        Effective middle) ↔
      Runs.Along (step selfIp) (Undisturbed selfIp) events {} := by
  refine Runs.safe_iff_along (Sized selfIp) Effective
    (fun _ _ _ sized happens => step_sized sized happens)
    (fun _ _ _ sized effective happens => step_effective sized effective happens) ?_ ?_ reached
  · exact ⟨fun _ _ found => (nomatch found), fun _ listed => nomatch listed⟩
  · exact ⟨rfl, fun _ listed => (nomatch listed), fun _ _ found => nomatch found⟩

/-! ### Two members -/

def ownIp : Ipv4Addr := 0x0A4D0502#32

def otherIp : Ipv4Addr := 0x0A4D0503#32

def pairLedger : List GroupLedgerEntry :=
  [{ ip := ownIp, online := true }, { ip := otherIp, online := true }]

/-- A group of the two with a revision. -/
def teamGroup (revision : Nat) (author : Ipv4Addr) : GroupInfo where
  id := "g"
  name := "team"
  members := [ownIp, otherIp]
  revision := revision
  updatedBy := author

/-- The edit that renames the group. -/
def renameEdit (before : GroupInfo) : PendingEdit where
  before := before
  after := (before.revise ownIp "home" before.members).wrapped

/-- A group is created, and renamed from what was read. -/
def renamedTeam : List GroupDeviceEvent :=
  [.create "g" "team" [otherIp] pairLedger, .read "g" (.update (some "home") [] []) pairLedger,
    .write (renameEdit (teamGroup 1 ownIp))]

theorem edits_effective_renamed :
    ∃ final, Runs.run (step ownIp) renamedTeam {} = some final ∧
      final.reports = [{ group := teamGroup 1 ownIp, stored := true },
        { group := (renameEdit (teamGroup 1 ownIp)).after, stored := true }] ∧
      ∀ done, done <+: renamedTeam → ∀ middle, Runs.run (step ownIp) done {} = some middle →
        Effective middle := by
  have ends : (Runs.run (step ownIp) renamedTeam {}).map GroupDevice.reports =
      some [{ group := teamGroup 1 ownIp, stored := true },
        { group := (renameEdit (teamGroup 1 ownIp)).after, stored := true }] := by
    decide
  obtain ⟨final, reached, reports⟩ := Option.map_eq_some_iff.mp ends
  refine ⟨final, reached, reports, (edits_effective_iff reached).mpr ?_⟩
  refine ⟨trivial, fun created made => ⟨trivial, fun drafted read =>
    ⟨⟨fun current found => .inl ?_, by decide⟩, fun _ _ => trivial⟩⟩⟩
  have known : (Runs.run (step ownIp) [.create "g" "team" [otherIp] pairLedger,
      .read "g" (.update (some "home") [] []) pairLedger] {}).map (fun device =>
        device.store.groups "g") = some (some (teamGroup 1 ownIp)) := by
    decide
  rw [Runs.run_cons.mpr ⟨created, made, Runs.run_cons.mpr ⟨drafted, read, rfl⟩⟩] at known
  cases found.symm.trans (Option.some.inj known)
  decide

/-- What a run from the empty store leaves of the group. -/
theorem ends_with {events : List GroupDeviceEvent} {overflowed : Bool} {held : Option GroupInfo}
    {reports : List EditReport}
    (ends : (Runs.run (step ownIp) events {}).map (fun device =>
      (device.overflowed, device.store.groups "g", device.reports)) =
        some (overflowed, held, reports)) :
    ∃ final, Runs.run (step ownIp) events {} = some final ∧ final.overflowed = overflowed ∧
      final.store.groups "g" = held ∧ final.reports = reports := by
  obtain ⟨final, reached, facts⟩ := Option.map_eq_some_iff.mp ends
  obtain ⟨overflows, rest⟩ := Prod.mk.inj facts
  obtain ⟨kept, reported⟩ := Prod.mk.inj rest
  exact ⟨final, reached, overflows, kept, reported⟩

/-- A received revision that is the highest one makes the next edit overflow, which is reported
and not stored; so is an edit that a competing update overtakes between its locks. -/
theorem edits_lost :
    (∃ final, Runs.run (step ownIp)
        [.receive otherIp (teamGroup U64_MAX otherIp),
          .read "g" (.update (some "home") [] []) pairLedger,
          .write (renameEdit (teamGroup U64_MAX otherIp))] {} = some final ∧
      final.overflowed = true ∧
      final.store.groups "g" = some (teamGroup U64_MAX otherIp) ∧
      final.reports = [{ group := (renameEdit (teamGroup U64_MAX otherIp)).after
                         stored := false }]) ∧
      ∃ final, Runs.run (step ownIp)
          [.receive otherIp (teamGroup 1 otherIp),
            .read "g" (.update (some "home") [] []) pairLedger,
            .receive otherIp (teamGroup 2 otherIp),
            .write (renameEdit (teamGroup 1 otherIp))] {} = some final ∧
        final.overflowed = false ∧
        final.store.groups "g" = some (teamGroup 2 otherIp) ∧
        final.reports = [{ group := (renameEdit (teamGroup 1 otherIp)).after, stored := false }] :=
  ⟨ends_with (by decide), ends_with (by decide)⟩

end GroupDevice

end PeerCove
