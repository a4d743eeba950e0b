/-
Module: PeerCove.Proofs.SheetMerges
Layer: Proofs
Purpose: The merged ranges of a sheet share no cell, and nothing is stored under them, as long as
  no batch writes to a cell that a range covers.
Trusted boundary: none
Main exports: MergesSound, SheetsReachable, merges_sound
-/
import PeerCove.Proofs.SheetReplay

namespace PeerCove

open Fallible

variable {actorName : String} {now : Nat}

/-! ### Ranges -/

namespace SheetMerge

theorem contains_iff {merge : SheetMerge} {row col : Nat} :
    merge.contains row col = true ↔
      (merge.row ≤ row ∧ row < merge.row + merge.rowSpan) ∧
        merge.col ≤ col ∧ col < merge.col + merge.colSpan := by
  simp [contains, and_assoc]

/-- Two ranges that are not empty overlap where they share a cell. -/
theorem overlaps_iff {one two : SheetMerge} (first : 0 < one.rowSpan ∧ 0 < one.colSpan)
    (second : 0 < two.rowSpan ∧ 0 < two.colSpan) :
    one.overlaps two = true ↔
      ∃ row col, one.contains row col = true ∧ two.contains row col = true := by
  simp only [contains_iff, overlaps, Bool.and_eq_true, decide_eq_true_eq]
  constructor
  · intro crossing
    refine ⟨max one.row two.row, max one.col two.col, ?_⟩
    omega
  · intro shared
    rcases shared with ⟨row, col, here, there⟩
    omega

/-- A position that a range covers without being its anchor. -/
def Covers (merge : SheetMerge) (position : Nat × Nat) : Prop :=
  merge.contains position.1 position.2 = true ∧ position ≠ (merge.row, merge.col)

instance (merge : SheetMerge) (position : Nat × Nat) : Decidable (merge.Covers position) :=
  inferInstanceAs (Decidable (_ ∧ _))

theorem mem_covered {merge : SheetMerge} {position : Nat × Nat} :
    position ∈ merge.covered ↔ merge.Covers position := by
  rcases position with ⟨row, col⟩
  simp only [covered, Covers, contains_iff, List.mem_filter, List.mem_flatMap, List.mem_map,
    List.mem_range'_1, decide_eq_true_eq]
  constructor
  · intro listed
    rcases listed with ⟨⟨_, rows, _, cols, same⟩, apart⟩
    rcases Prod.mk.inj same with ⟨rfl, rfl⟩
    exact ⟨⟨rows, cols⟩, apart⟩
  · intro covers
    rcases covers with ⟨⟨rows, cols⟩, apart⟩
    exact ⟨⟨row, rows, col, cols, rfl⟩, apart⟩

/-- No cell is in both ranges. -/
def Apart (one two : SheetMerge) : Prop :=
  ∀ row col, ¬ (one.contains row col = true ∧ two.contains row col = true)

theorem Apart.symm {one two : SheetMerge} (apart : Apart one two) : Apart two one :=
  fun row col both => apart row col both.symm

/-- A range that a sheet may have: more than its anchor, and inside the sheet. -/
structure Fits (merge : SheetMerge) : Prop where
  anchored : merge.contains merge.row merge.col = true
  wide : ∃ position, merge.Covers position
  inside : ∀ row col, merge.contains row col = true → row < MAX_SHEET_ROWS ∧ col < MAX_SHEET_COLS

theorem Fits.spans {merge : SheetMerge} (fits : merge.Fits) :
    0 < merge.rowSpan ∧ 0 < merge.colSpan := by
  have anchored := contains_iff.mp fits.anchored
  omega

/-- What `validate_merge` lets through. -/
theorem fits_of_valid {merge : SheetMerge} (valid : validateMerge merge = .ok ()) : merge.Fits := by
  rcases bind_ok.mp valid with ⟨_, spans, valid⟩
  have nonempty := refuseIf_ok.mp spans
  rcases bind_ok.mp valid with ⟨_, size, bounds⟩
  have several := refuseIf_ok.mp size
  have inside := refuseIf_ok.mp bounds
  have anchored : merge.contains merge.row merge.col = true := contains_iff.mpr (by omega)
  refine ⟨anchored, ?_, ?_⟩
  · -- one of the spans is more than 1
    by_cases tall : 1 < merge.rowSpan
    · refine ⟨(merge.row + 1, merge.col), contains_iff.mpr (by omega), ?_⟩
      simp
    · have flat : merge.rowSpan = 1 := by omega
      rw [flat] at several
      refine ⟨(merge.row, merge.col + 1), contains_iff.mpr (by omega), ?_⟩
      simp
  · intro row col contained
    have bounds := contains_iff.mp contained
    omega

end SheetMerge

/-! ### Sheets -/

/-- Merged ranges are pairwise disjoint and fit the sheet. -/
structure RangesSound (merges : List SheetMerge) : Prop where
  apart : merges.Pairwise SheetMerge.Apart
  fits : ∀ merge ∈ merges, merge.Fits

/-- Cells are stored under none of the merged ranges, except at its anchor. -/
structure MergesSound (sheet : Sheet) : Prop where
  ranges : RangesSound sheet.merges
  absent : ∀ merge ∈ sheet.merges, ∀ position, merge.Covers position →
    sheet.cells.get? position = none

theorem rangesSound_nil : RangesSound [] where
  apart := .nil
  fits := by
    intro merge listed
    cases listed

theorem created_sound (now : Nat) : MergesSound (Sheet.created now) where
  ranges := rangesSound_nil
  absent := by
    intro merge listed
    cases listed

/-- A merge that succeeds adds its range to the others. -/
theorem merge_order {merge : SheetMerge} {sheet sheet' : Sheet}
    {reply : List SheetMerge × List SheetCell}
    (done : sheet.merge actorName now merge = .ok (sheet', reply)) :
    sheet'.merges.Perm (merge :: sheet.merges) := by
  rcases merge_inv done with ⟨_, _, _, merges, _⟩
  rw [merges]
  exact List.perm_orderedInsert ..

/-- The range that is added is apart from the others. -/
theorem merge_ranges {merge : SheetMerge} {sheet sheet' : Sheet}
    {reply : List SheetMerge × List SheetCell}
    (done : sheet.merge actorName now merge = .ok (sheet', reply))
    (sound : RangesSound sheet.merges) : RangesSound sheet'.merges := by
  rcases merge_inv done with ⟨valid, free, _⟩
  have fits := SheetMerge.fits_of_valid valid
  have fresh : ∀ other ∈ sheet.merges, merge.Apart other := by
    intro other listed row col both
    have crossing := (SheetMerge.overlaps_iff (sound.fits other listed).spans fits.spans).mpr
      ⟨row, col, both.2, both.1⟩
    exact absurd crossing (by simpa using List.any_eq_false.mp free other listed)
  have order := merge_order done
  refine ⟨?_, ?_⟩
  · apply (order.pairwise_iff (fun apart => apart.symm)).mpr
    exact List.pairwise_cons.mpr ⟨fresh, sound.apart⟩
  · intro other listed
    rcases List.mem_cons.mp (order.mem_iff.mp listed) with rfl | old
    · exact fits
    · exact sound.fits other old

/-- A merge that succeeds clears the cells its range covers. -/
theorem merge_sound {merge : SheetMerge} {sheet sheet' : Sheet}
    {reply : List SheetMerge × List SheetCell}
    (done : sheet.merge actorName now merge = .ok (sheet', reply)) (sound : MergesSound sheet) :
    MergesSound sheet' := by
  rcases merge_inv done with ⟨_, _, cells, _⟩
  have found (position : Nat × Nat) : sheet'.cells.get? position =
      if position ∈ merge.covered then none else sheet.cells.get? position := by
    rw [cells]
    exact deleteCell_get? ..
  refine ⟨merge_ranges done sound.ranges, ?_⟩
  intro other listed position covers
  rw [found]
  split
  · rfl
  · rename_i untouched
    rcases List.mem_cons.mp ((merge_order done).mem_iff.mp listed) with rfl | old
    · exact absurd (SheetMerge.mem_covered.mpr covers) untouched
    · exact sound.absent other old position covers

theorem RangesSound.sublist {one two : List SheetMerge} (sound : RangesSound two)
    (fewer : one.Sublist two) : RangesSound one where
  apart := sound.apart.sublist fewer
  fits := fun merge listed => sound.fits merge (fewer.subset listed)

theorem unmerged_sound {row col : Nat} {sheet sheet' : Sheet}
    (done : SharedStore.unmerged sheet row col = .ok sheet') (sound : MergesSound sheet) :
    MergesSound sheet' := by
  rcases unmerged_inv done with ⟨cells, fewer⟩
  refine ⟨sound.ranges.sublist fewer, ?_⟩
  intro merge listed
  rw [cells]
  exact sound.absent merge (fewer.subset listed)

/-! ### Batches -/

/-- A write that creates a cell where there is none. -/
def CellWrite.Creates (write : CellWrite) : Prop :=
  write.baseRevision = 0 ∧ ¬ (write.value = "" ∧ write.formatNew.isDefault = true)

instance (write : CellWrite) : Decidable write.Creates := inferInstanceAs (Decidable (_ ∧ _))

/-- A write that would create a cell under a merged range. -/
def Sheet.Trespassed (sheet : Sheet) (write : CellWrite) : Prop :=
  write.Creates ∧ ∃ merge ∈ sheet.merges, merge.Covers write.position

/-- A position without a cell has none after a write that creates none there. -/
theorem writeCell_absent {acc next : WriteAcc} {write : CellWrite} {position : Nat × Nat}
    (done : writeCell actorName now acc write = .ok next) (absent : acc.cells.get? position = none)
    (quiet : write.position = position → ¬ write.Creates) : next.cells.get? position = none := by
  by_cases here : write.position = position
  · subst here
    cases writeCell_outcome done with
    | stale => exact absent
    | missing => exact absent
    | nothing => exact absent
    | deleted cell found => exact Table.get?_erase_self ..
    | replaced cell found =>
        rw [absent] at found
        cases found
    | created _ same room something => exact absurd ⟨same, something⟩ (quiet rfl)
  · cases writeCell_outcome done with
    | stale => exact absent
    | missing => exact absent
    | nothing => exact absent
    | deleted => exact (Table.get?_erase_of_ne _ (Ne.symm here)).trans absent
    | replaced => exact (Table.get?_insert_of_ne _ (Ne.symm here) _).trans absent
    | created => exact (Table.get?_insert_of_ne _ (Ne.symm here) _).trans absent

/-- The same for a batch. -/
theorem WriteRun.absent {start acc : WriteAcc} {writes : List CellWrite} {tables : List Cells}
    {position : Nat × Nat} (batch : WriteRun actorName now start writes tables acc)
    (absent : start.cells.get? position = none)
    (quiet : ∀ write ∈ writes, write.position = position → ¬ write.Creates) :
    acc.cells.get? position = none := by
  induction batch with
  | nil => exact absent
  | @snoc writes tables acc next write before done ih =>
      apply writeCell_absent done
      · apply ih
        intro other listed
        exact quiet other (List.mem_append_left _ listed)
      · exact quiet write (List.mem_append_right _ (List.mem_singleton.mpr rfl))

theorem write_sound {cells : List CellWrite} {sheet sheet' : Sheet} {result : WriteResult}
    (done : sheet.write actorName now cells = .ok (sheet', result))
    (clean : ∀ write ∈ cells, ¬ sheet.Trespassed write) (sound : MergesSound sheet) :
    MergesSound sheet' := by
  unfold Sheet.write at done
  split at done
  · rcases Prod.mk.inj (Except.ok.inj done) with ⟨rfl, _⟩
    exact sound
  · rcases bind_ok.mp done with ⟨acc, folded, last⟩
    rcases Prod.mk.inj (pure_ok.mp last) with ⟨rfl, _⟩
    rcases foldlM_writeCell folded with ⟨tables, batch⟩
    refine ⟨sound.ranges, ?_⟩
    intro merge listed position covers
    apply batch.absent (sound.absent merge listed position covers)
    intro write member same creates
    apply clean write member
    rw [← same] at covers
    exact ⟨creates, merge, listed, covers⟩

/-! ### Runs -/

/-- A request on sheets, with who makes it and when. -/
structure SheetCall where
  env : StoreEnv
  actor : Actor
  op : SheetOp

def SheetCall.perform (call : SheetCall) (db : SharedDb) : SharedDb :=
  (SharedStore.performSheet call.env call.actor call.op db).2

/-- The states a store without sheets reaches by calls that are allowed when they are made. -/
inductive SheetsReachable (allowed : SharedDb → SheetCall → Prop) : SharedDb → Prop where
  | opened (db : SharedDb) (none : db.sheets = Table.empty) : SheetsReachable allowed db
  | called {db : SharedDb} (before : SheetsReachable allowed db) (call : SheetCall)
      (may : allowed db call) : SheetsReachable allowed (call.perform db)

/-- Anything goes. -/
def anyCall (_ : SharedDb) (_ : SheetCall) : Prop := True

/-- No write of a batch would create a cell under a merged range of its sheet. -/
def untrespassing (db : SharedDb) (call : SheetCall) : Prop :=
  ∀ id cells row, call.op = .write id cells → db.sheets.get? id = some row →
    ∀ write ∈ cells, ¬ row.sheet.Trespassed write

/-- Merged ranges are sound in every state reached without a write under them. -/
theorem merges_sound {db : SharedDb} (run : SheetsReachable untrespassing db) :
    ∀ id row, db.sheets.get? id = some row → MergesSound row.sheet := by
  induction run with
  | opened db none =>
      intro id row found
      rw [none] at found
      cases found
  | @called db before call may ih =>
      apply (SharedStore.performSheet_change call.env call.actor call.op db).holds ih created_sound
      · intro id cells row sheet result op present done
        exact write_sound done (may id cells row op present)
      · exact fun merge sheet sheet' reply => merge_sound
      · exact fun row col sheet sheet' => unmerged_sound
      · intro one two cells merges sound
        refine ⟨?_, ?_⟩
        · rw [merges]
          exact sound.ranges
        · rw [merges, cells]
          exact sound.absent

/-- Merged ranges are disjoint and fit in every state of a store, whatever is written. -/
theorem reachable_ranges {db : SharedDb} (run : SharedStore.Reachable db) {id : String}
    {row : SheetRow} (found : db.sheets.get? id = some row) : RangesSound row.sheet.merges := by
  apply run.holds (P := fun sheet => RangesSound sheet.merges) _ _ _ _ _ id row found
  · exact fun _ => rangesSound_nil
  · intro _ _ _ _ _ _ done sound
    rcases write_batch done with ⟨_, _, _, merges, _⟩
    rw [merges]
    exact sound
  · exact fun _ _ _ _ _ _ done sound => merge_ranges done sound
  · exact fun _ _ _ _ done sound => sound.sublist (unmerged_inv done).2
  · intro one two _ merges sound
    rw [merges]
    exact sound

/-- Alice's calls: a sheet, and its first two cells merged. -/
def sheetCall (op : SheetOp) : SheetCall where
  env := { now := 1, newId := "s", fts := fun _ _ => false }
  actor := Actor.member "alice" "Alice"
  op := op

def createCall : SheetCall := sheetCall (.create "Plan")
def mergeCall : SheetCall := sheetCall (.merge "s" { row := 0, col := 0, rowSpan := 1, colSpan := 2 })
def writeCall (col : Nat) : SheetCall :=
  sheetCall (.write "s" [{ row := 0, col := col, value := "x" }])

/-- The second cell is written after it was merged into the first. -/
theorem merges_unsound :
    ¬ ∀ db, SheetsReachable anyCall db →
      ∀ id row, db.sheets.get? id = some row → MergesSound row.sheet := by
  intro claim
  have run : SheetsReachable anyCall ((writeCall 1).perform (mergeCall.perform
      (createCall.perform SharedDb.empty))) :=
    .called (.called (.called (.opened SharedDb.empty rfl) createCall trivial) mergeCall trivial)
      (writeCall 1) trivial
  have absent := (claim _ run "s" _ rfl).absent
    { row := 0, col := 0, rowSpan := 1, colSpan := 2 } (List.mem_singleton.mpr rfl) (0, 1)
      (by decide)
  cases absent

/-- The anchor of a merged range may be written. -/
theorem merges_sound_anchor :
    ∃ row, ((writeCall 0).perform (mergeCall.perform
      (createCall.perform SharedDb.empty))).sheets.get? "s" = some row ∧ MergesSound row.sheet := by
  have run : SheetsReachable untrespassing ((writeCall 0).perform (mergeCall.perform
      (createCall.perform SharedDb.empty))) := by
    apply SheetsReachable.called _ (writeCall 0)
    · intro id cells row op present write member trespassed
      rcases SheetOp.write.inj op with ⟨rfl, rfl⟩
      obtain rfl := Option.some.inj present
      obtain rfl := List.mem_singleton.mp member
      rcases trespassed with ⟨_, merge, listed, covers⟩
      obtain rfl := List.mem_singleton.mp listed
      exact absurd covers (by decide)
    · apply SheetsReachable.called _ mergeCall
      · intro id cells row op
        cases op
      · apply SheetsReachable.called _ createCall
        · intro id cells row op
          cases op
        · exact .opened SharedDb.empty rfl
  exact ⟨_, rfl, merges_sound run "s" _ rfl⟩

end PeerCove
