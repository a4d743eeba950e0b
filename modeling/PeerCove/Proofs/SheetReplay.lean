/-
Module: PeerCove.Proofs.SheetReplay
Layer: Proofs
Purpose: A batch of cell writes is what its reply and its event say: every write is applied or
  reported as a conflict, and the changed cells, applied to a copy of the sheet, give the sheet.
Trusted boundary: none
Main exports: sheetWrite_exact
-/
import PeerCove.Memo.SheetCache
import PeerCove.Proofs.SheetCas
import PeerCove.Proofs.SheetRuns

namespace PeerCove

open Fallible SheetCache

variable {actorName : String} {now : Nat}

/-! ### Applying reported cells -/

theorem patchCell_get? (cells : Cells) (cell : SheetCell) (position : Nat × Nat) :
    (patchCell cells cell).get? position =
      if position = cell.position then (if cell.isEmpty then none else some cell.toRow)
      else cells.get? position := by
  unfold patchCell
  split
  · exact Table.get?_erase ..
  · exact Table.get?_insert ..

/-- Copies that agree still agree after the same event. -/
theorem patchCells_congr {one two : Cells} (agree : ∀ position, one.get? position = two.get? position)
    (changed : List SheetCell) (position : Nat × Nat) :
    (patchCells one changed).get? position = (patchCells two changed).get? position := by
  induction changed generalizing one two with
  | nil => exact agree position
  | cons cell rest ih =>
      apply ih
      intro position
      rw [patchCell_get?, patchCell_get?, agree]

theorem patchCells_append (cells : Cells) (one two : List SheetCell) :
    patchCells cells (one ++ two) = patchCells (patchCells cells one) two :=
  List.foldl_append

theorem cellsOf_get? (cache : SheetCache) (sheetId : String) (position : Nat × Nat) :
    (cache.cellsOf sheetId).get? position = cache.sheetCells.get? (sheetId, position) :=
  Table.get?_project ..

/-- An event patches the cells of its own sheet and no others. -/
theorem sheetCellsApply_cells (sheetId : String) (changed : List SheetCell) (cache : SheetCache)
    (other : String) (position : Nat × Nat) :
    ((cache.sheetCellsApply sheetId changed).cellsOf other).get? position =
      if other = sheetId then (patchCells (cache.cellsOf sheetId) changed).get? position
      else (cache.cellsOf other).get? position := by
  induction changed generalizing cache with
  | nil =>
      split
      · rename_i same
        rw [same]
        rfl
      · rfl
  | cons cell rest ih =>
      have step (other : String) (position : Nat × Nat) :
          ((applyCell sheetId cache cell).cellsOf other).get? position =
            if other = sheetId then (patchCell (cache.cellsOf sheetId) cell).get? position
            else (cache.cellsOf other).get? position := by
        rw [patchCell_get?]
        simp only [cellsOf_get?]
        unfold applyCell insertCacheCell
        by_cases here : other = sheetId
        · subst here
          rw [if_pos rfl]
          split
          · rename_i empty
            rw [Table.get?_erase]
            simp [Prod.ext_iff]
          · rename_i stored
            rw [Table.get?_insert]
            simp [Prod.ext_iff]
        · rw [if_neg here]
          split
          · rw [Table.get?_erase_of_ne]
            intro same
            exact here (congrArg Prod.fst same)
          · rw [Table.get?_insert_of_ne]
            intro same
            exact here (congrArg Prod.fst same)
      refine (ih (applyCell sheetId cache cell)).trans ?_
      by_cases here : other = sheetId
      · rw [if_pos here, if_pos here]
        apply patchCells_congr
        intro position
        rw [step, if_pos rfl]
      · rw [if_neg here, if_neg here, step, if_neg here]

/-! ### One write -/

/-- Every write is applied, or reported as a conflict. -/
theorem writeCell_counts {acc next : WriteAcc} {write : CellWrite}
    (done : writeCell actorName now acc write = .ok next) :
    next.applied + next.conflicts.length = acc.applied + acc.conflicts.length + 1 := by
  cases writeCell_outcome done with
  | stale => rw [List.length_append]; rfl
  | missing => rw [List.length_append]; rfl
  | nothing => simp only; omega
  | deleted => simp only; omega
  | replaced => simp only; omega
  | created => simp only; omega

/-- No more cells are changed than writes are applied. -/
theorem writeCell_changes {acc next : WriteAcc} {write : CellWrite}
    (done : writeCell actorName now acc write = .ok next) :
    next.changed.length + acc.applied ≤ next.applied + acc.changed.length := by
  cases writeCell_outcome done with
  | stale => simp only; omega
  | missing => simp only; omega
  | nothing => simp only; omega
  | deleted => simp only [List.length_append, List.length_singleton]; omega
  | replaced => simp only [List.length_append, List.length_singleton]; omega
  | created => simp only [List.length_append, List.length_singleton]; omega

theorem writtenCell_isEmpty {write : CellWrite} {revision : Nat} {format : CellFormat} :
    (writtenCell actorName now write revision format).isEmpty = true ↔
      write.value = "" ∧ format.isDefault = true := by
  rw [SheetCell.isEmpty, Bool.and_eq_true, decide_eq_true_eq]
  rfl

/-- The changed cells tell what a write does to the table. -/
theorem writeCell_patches {acc next : WriteAcc} {write : CellWrite}
    (done : writeCell actorName now acc write = .ok next) :
    ∃ reports, next.changed = acc.changed ++ reports ∧
      next.cells = patchCells acc.cells reports := by
  cases writeCell_outcome done with
  | stale => exact ⟨[], (List.append_nil _).symm, rfl⟩
  | missing => exact ⟨[], (List.append_nil _).symm, rfl⟩
  | nothing => exact ⟨[], (List.append_nil _).symm, rfl⟩
  | deleted cell found same nothing =>
      refine ⟨_, rfl, ?_⟩
      exact (if_pos (writtenCell_isEmpty.mpr nothing)).symm
  | replaced cell found same something =>
      refine ⟨_, rfl, ?_⟩
      exact (if_neg (mt writtenCell_isEmpty.mp something)).symm
  | created absent same room something =>
      refine ⟨_, rfl, ?_⟩
      exact (if_neg (mt writtenCell_isEmpty.mp something)).symm

/-- The report of a write that came too late: what its cell holds, under another revision than the
write names. -/
def ReportsStale (cells : Cells) (write : CellWrite) (conflict : SheetCell) : Prop :=
  conflict.position = write.position ∧
    (conflict.revision, conflict.value, conflict.format) = cellView cells write.position ∧
      conflict.revision ≠ write.baseRevision

/-- A write adds at most the report that it came too late. -/
theorem writeCell_conflicts {acc next : WriteAcc} {write : CellWrite}
    (done : writeCell actorName now acc write = .ok next) {conflict : SheetCell}
    (reported : conflict ∈ next.conflicts) :
    conflict ∈ acc.conflicts ∨ ReportsStale acc.cells write conflict := by
  cases writeCell_outcome done with
  | nothing => exact .inl reported
  | deleted => exact .inl reported
  | replaced => exact .inl reported
  | created => exact .inl reported
  | stale cell found differ =>
      rcases List.mem_append.mp reported with old | single
      · exact .inl old
      · obtain rfl := List.mem_singleton.mp single
        exact .inr ⟨rfl, (cellView_some found).symm, differ⟩
  | missing absent differ =>
      rcases List.mem_append.mp reported with old | single
      · exact .inl old
      · obtain rfl := List.mem_singleton.mp single
        exact .inr ⟨rfl, (cellView_none absent).symm, differ.symm⟩

/-! ### Limits -/

/-- The limits of a sheet: the number of cells, and their positions. -/
structure WithinLimits (cells : Cells) : Prop where
  few : cells.size ≤ MAX_SHEET_CELLS
  inside : ∀ position cell, cells.get? position = some cell →
    position.1 < MAX_SHEET_ROWS ∧ position.2 < MAX_SHEET_COLS

theorem withinLimits_empty : WithinLimits Table.empty where
  few := Nat.zero_le _
  inside := by
    intro position cell found
    cases found

/-- Fewer cells at the same positions are within the limits too. -/
theorem WithinLimits.mono {one two : Cells} (within : WithinLimits one)
    (fewer : two.size ≤ one.size)
    (kept : ∀ position, two.get? position = none ∨ two.get? position = one.get? position) :
    WithinLimits two where
  few := fewer.trans within.few
  inside := by
    intro position cell found
    rcases kept position with absent | same
    · rw [absent] at found
      cases found
    · exact within.inside position cell (same.symm.trans found)

theorem WithinLimits.insert {cells : Cells} {position : Nat × Nat} {cell : CellRow}
    (within : WithinLimits cells)
    (fits : position.1 < MAX_SHEET_ROWS ∧ position.2 < MAX_SHEET_COLS)
    (room : (cells.insert position cell).size ≤ MAX_SHEET_CELLS) :
    WithinLimits (cells.insert position cell) where
  few := room
  inside := by
    intro other row found
    rw [Table.get?_insert] at found
    split at found
    · rename_i same
      rw [same]
      exact fits
    · exact within.inside other row found

theorem WithinLimits.erase {cells : Cells} (within : WithinLimits cells) (position : Nat × Nat) :
    WithinLimits (cells.erase position) := by
  apply within.mono (Table.size_erase_le ..)
  intro other
  rw [Table.get?_erase]
  split
  · exact .inl rfl
  · exact .inr rfl

/-- A write that is not refused names a position of the sheet. -/
theorem writeCell_inside {acc next : WriteAcc} {write : CellWrite}
    (done : writeCell actorName now acc write = .ok next) :
    write.position.1 < MAX_SHEET_ROWS ∧ write.position.2 < MAX_SHEET_COLS := by
  rcases bind_ok.mp done with ⟨_, checked, _⟩
  rcases bind_ok.mp checked with ⟨_, placed, _⟩
  have fits := refuseIf_ok.mp placed
  simp only [ge_iff_le, not_or, Nat.not_le] at fits
  exact fits

/-- The counter of the loop is the number of cells, and stays within the limit. -/
theorem writeCell_limits {acc next : WriteAcc} {write : CellWrite}
    (done : writeCell actorName now acc write = .ok next)
    (counted : acc.currentCount = acc.cells.size) (within : WithinLimits acc.cells) :
    next.currentCount = next.cells.size ∧ WithinLimits next.cells := by
  have fits := writeCell_inside done
  cases writeCell_outcome done with
  | stale => exact ⟨counted, within⟩
  | missing => exact ⟨counted, within⟩
  | nothing => exact ⟨counted, within⟩
  | deleted cell found same nothing =>
      refine ⟨?_, within.erase _⟩
      have fewer := Table.size_erase_some found
      simp only
      omega
  | replaced cell found same something =>
      have size : (acc.cells.insert write.position (writtenRow actorName now write
          (cell.revision + 1) (write.formatOver cell))).size = acc.cells.size := by
        rw [Table.size_insert, Table.size_erase_some found]
      refine ⟨counted.trans size.symm, within.insert fits ?_⟩
      rw [size]
      exact within.few
  | created absent same room something =>
      have size : (acc.cells.insert write.position (writtenRow actorName now write 1
          write.formatNew)).size = acc.cells.size + 1 := by
        rw [Table.size_insert, Table.erase_absent absent]
      refine ⟨?_, within.insert fits ?_⟩
      · rw [size, ← counted]
      · rw [size, ← counted]
        exact room

/-! ### A batch -/

/-- What holds of a batch after some of its writes. -/
structure BatchInv (start : WriteAcc) (actorName : String) (now : Nat) (writes : List CellWrite)
    (acc : WriteAcc) : Prop where
  counts : acc.applied + acc.conflicts.length =
    start.applied + start.conflicts.length + writes.length
  changes : acc.changed.length + start.applied ≤ acc.applied + start.changed.length
  patches : ∃ reports, acc.changed = start.changed ++ reports ∧
    acc.cells = patchCells start.cells reports
  stale : ∀ conflict ∈ acc.conflicts, conflict ∈ start.conflicts ∨
    ∃ earlier write later mid, writes = earlier ++ write :: later ∧
      earlier.foldlM (writeCell actorName now) start = .ok mid ∧
        ReportsStale mid.cells write conflict
  limits : start.currentCount = start.cells.size → WithinLimits start.cells →
    acc.currentCount = acc.cells.size ∧ WithinLimits acc.cells

/-- The invariant holds after each write of a batch. -/
theorem WriteRun.batchInv {start acc : WriteAcc} {writes : List CellWrite} {tables : List Cells}
    (batch : WriteRun actorName now start writes tables acc) :
    BatchInv start actorName now writes acc := by
  induction batch with
  | nil =>
      refine ⟨rfl, Nat.le_of_eq (Nat.add_comm ..), ⟨[], (List.append_nil _).symm, rfl⟩, ?_, ?_⟩
      · exact fun conflict reported => .inl reported
      · exact fun counted within => ⟨counted, within⟩
  | @snoc writes tables acc next write before done ih =>
      refine ⟨?_, ?_, ?_, ?_, ?_⟩
      · rw [writeCell_counts done, ih.counts, List.length_append]
        rfl
      · have step := writeCell_changes done
        have before := ih.changes
        omega
      · rcases ih.patches with ⟨reports, changed, cells⟩
        rcases writeCell_patches done with ⟨more, changed', cells'⟩
        refine ⟨reports ++ more, ?_, ?_⟩
        · rw [changed', changed, List.append_assoc]
        · rw [cells', cells, patchCells_append]
      · intro conflict reported
        rcases writeCell_conflicts done reported with old | fresh
        · rcases ih.stale conflict old with first | ⟨earlier, other, later, mid, split, reach, stale⟩
          · exact .inl first
          · refine .inr ⟨earlier, other, later ++ [write], mid, ?_, reach, stale⟩
            rw [split, List.append_assoc, List.cons_append]
        · exact .inr ⟨writes, write, [], acc, rfl, before.foldlM, fresh⟩
      · intro counted within
        rcases ih.limits counted within with ⟨counted, within⟩
        exact writeCell_limits done counted within

/-- What a batch that succeeds does, as the loop tells. -/
theorem write_batch {sheet sheet' : Sheet} {cells : List CellWrite} {result : WriteResult}
    (done : sheet.write actorName now cells = .ok (sheet', result)) :
    ∃ acc, BatchInv sheet.beginWrite actorName now cells acc ∧ sheet'.cells = acc.cells ∧
      sheet'.merges = sheet.merges ∧ result.applied = acc.applied ∧
      result.conflicts = acc.conflicts ∧ result.changed = acc.changed := by
  unfold Sheet.write at done
  split at done
  · rename_i none
    subst none
    rcases Prod.mk.inj (Except.ok.inj done) with ⟨rfl, rfl⟩
    exact ⟨sheet.beginWrite, WriteRun.nil.batchInv, rfl, rfl, rfl, rfl, rfl⟩
  · rcases bind_ok.mp done with ⟨acc, folded, last⟩
    rcases Prod.mk.inj (pure_ok.mp last) with ⟨rfl, rfl⟩
    rcases foldlM_writeCell folded with ⟨tables, batch⟩
    exact ⟨acc, batch.batchInv, rfl, rfl, rfl, rfl, rfl⟩

theorem write_limits {sheet sheet' : Sheet} {cells : List CellWrite} {result : WriteResult}
    (done : sheet.write actorName now cells = .ok (sheet', result))
    (within : WithinLimits sheet.cells) : WithinLimits sheet'.cells := by
  rcases write_batch done with ⟨acc, inv, cells, _⟩
  rw [cells]
  exact (inv.limits rfl within).2

/-! ### Merges -/

theorem deleteCell_size (positions : List (Nat × Nat)) (acc : Cells × List SheetCell) :
    (positions.foldl (deleteCell actorName now) acc).1.size ≤ acc.1.size := by
  induction positions generalizing acc with
  | nil => exact Nat.le_refl _
  | cons position rest ih =>
      refine (ih _).trans ?_
      unfold deleteCell
      split
      · exact Table.size_erase_le ..
      · exact Nat.le_refl _

theorem merge_limits {merge : SheetMerge} {sheet sheet' : Sheet}
    {reply : List SheetMerge × List SheetCell}
    (done : sheet.merge actorName now merge = .ok (sheet', reply))
    (within : WithinLimits sheet.cells) : WithinLimits sheet'.cells := by
  rcases merge_inv done with ⟨_, _, cells, _⟩
  rw [cells]
  apply within.mono
  · exact deleteCell_size ..
  · intro position
    rw [deleteCovered, deleteCell_get?]
    split
    · exact .inl rfl
    · exact .inr rfl

/-- A range that is taken away leaves the others and the cells as they were. -/
theorem unmerged_inv {row col : Nat} {sheet sheet' : Sheet}
    (done : SharedStore.unmerged sheet row col = .ok sheet') :
    sheet'.cells = sheet.cells ∧ sheet'.merges.Sublist sheet.merges := by
  unfold SharedStore.unmerged at done
  split at done
  · cases done
  · obtain rfl := Except.ok.inj done
    exact ⟨rfl, List.filter_sublist⟩

/-- Every sheet the store ever has is within the limits. -/
theorem reachable_limits {db : SharedDb} (run : SharedStore.Reachable db) {id : String}
    {row : SheetRow} (found : db.sheets.get? id = some row) : WithinLimits row.sheet.cells := by
  apply run.holds (P := fun sheet => WithinLimits sheet.cells) _ _ _ _ _ id row found
  · exact fun _ => withinLimits_empty
  · exact fun _ _ _ _ _ _ done within => write_limits done within
  · exact fun _ _ _ _ _ _ done within => merge_limits done within
  · intro _ _ _ _ done within
    rw [(unmerged_inv done).1]
    exact within
  · intro one two cells _ within
    rw [cells]
    exact within

/-! ### The operation of the store -/

/-- The cache holds the cells of a sheet. -/
def SheetCache.Mirrors (cache : SheetCache) (id : String) (cells : Cells) : Prop :=
  ∀ position, (cache.cellsOf id).get? position = cells.get? position

/-- In every state a store reaches, for every actor and batch: a batch that succeeds applies each
write or reports it with the revision it should have named; a copy of the sheet follows it by
applying the changed cells, and no other sheet of the copy changes; a batch that fails changes
nothing; and all sheets are within the limits. -/
theorem sheetWrite_exact {db : SharedDb} (run : SharedStore.Reachable db) (now : Nat)
    (actor : Actor) (id : String) (cells : List CellWrite) :
    (∀ result db', SharedStore.sheetWrite now actor id cells db = (.ok result, db') →
      ∃ row row', db.sheets.get? id = some row ∧ db'.sheets.get? id = some row' ∧
        result.applied + result.conflicts.length = cells.length ∧
        (∀ conflict ∈ result.conflicts, ∃ earlier write later acc,
          cells = earlier ++ write :: later ∧
          earlier.foldlM (writeCell actor.name now) row.sheet.beginWrite = .ok acc ∧
          ReportsStale acc.cells write conflict) ∧
        (∀ cache : SheetCache, cache.Mirrors id row.sheet.cells →
          (cache.sheetCellsApply id result.changed).Mirrors id row'.sheet.cells) ∧
        (∀ cache : SheetCache, ∀ other, other ≠ id → ∀ position,
          ((cache.sheetCellsApply id result.changed).cellsOf other).get? position =
            (cache.cellsOf other).get? position) ∧
        WithinLimits row'.sheet.cells) ∧
      (∀ error db', SharedStore.sheetWrite now actor id cells db = (.error error, db') → db' = db) ∧
        ∀ id row, db.sheets.get? id = some row → WithinLimits row.sheet.cells := by
  refine ⟨?_, ?_, fun id row found => reachable_limits run found⟩
  · intro result db' done
    rcases SharedStore.sheetWrite_ok done with ⟨row, sheet, present, written, rfl⟩
    have stored : (SharedStore.setSheet id (fun row => { row with sheet := sheet }) db).sheets.get?
        id = some { row with sheet := sheet } := by
      rw [SharedStore.setSheet, Table.get?_update_self, present]
      rfl
    rcases write_batch written with ⟨acc, inv, table, _, applied, conflicts, changed⟩
    refine ⟨row, _, present, stored, ?_, ?_, ?_, ?_, ?_⟩
    · rw [applied, conflicts, inv.counts]
      exact Nat.zero_add _
    · rw [conflicts]
      intro conflict reported
      rcases inv.stale conflict reported with none | stale
      · cases none
      · exact stale
    · intro cache mirrors position
      rcases inv.patches with ⟨reports, reported, patched⟩
      have told : result.changed = reports := changed.trans reported
      rw [sheetCellsApply_cells, if_pos rfl, told]
      exact (patchCells_congr mirrors reports position).trans (by rw [table, patched]; rfl)
    · intro cache other differ position
      rw [sheetCellsApply_cells, if_neg differ]
    · exact write_limits written (reachable_limits run present)
  · intro error db' failed
    exact SharedStore.atomic_sheetWrite now actor id cells db error db' failed

/-- A store with one empty sheet. -/
def oneSheet : SharedDb :=
  (SharedStore.perform { now := 1, newId := "s", fts := fun _ _ => false }
    (Actor.member "alice" "Alice") (.sheet (.create "Plan")) SharedDb.empty).2

/-- Two writes to the first cell of a new sheet: the second comes too late. -/
theorem sheetWrite_exact_twice :
    ∃ result db', SharedStore.sheetWrite 2 (Actor.member "bob" "Bob") "s"
        [firstCell "a" 0, firstCell "b" 0] oneSheet = (.ok result, db') ∧
      result.applied + result.conflicts.length = 2 := by
  have reached : SharedStore.Reachable oneSheet := .requested (.opened SharedDb.empty rfl) _ _ _
  refine ⟨_, _, rfl, ?_⟩
  rcases (sheetWrite_exact reached 2 (Actor.member "bob" "Bob") "s"
    [firstCell "a" 0, firstCell "b" 0]).1 _ _ rfl with ⟨row, row', _, _, counts, _⟩
  exact counts

end PeerCove
