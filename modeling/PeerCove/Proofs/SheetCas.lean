/-
Module: PeerCove.Proofs.SheetCas
Layer: Proofs
Purpose: Runs of batch writes and merges on one sheet, and what the revision a write names says
  about the content it replaces.
Trusted boundary: none
Main exports: SheetRun, NoRecreation, write_replaces_observed
-/
import PeerCove.Memo.Sheet
import PeerCove.Library.Versioned

namespace PeerCove

open Fallible

/-! ### Runs -/

/-- The part of a batch that has been written so far.  The tables after each write are kept, the
newest first. -/
inductive WriteRun (actorName : String) (now : Nat) (start : WriteAcc) :
    List CellWrite → List Cells → WriteAcc → Prop where
  | nil : WriteRun actorName now start [] [] start
  | snoc {writes : List CellWrite} {tables : List Cells} {acc next : WriteAcc} {write : CellWrite}
      (before : WriteRun actorName now start writes tables acc)
      (done : writeCell actorName now acc write = .ok next) :
      WriteRun actorName now start (writes ++ [write]) (next.cells :: tables) next

/-- A run of batch writes and merges on a sheet, from its creation.  It keeps every table the
cells have gone through, newest first, and all cells reported by replies and events.  Operations
that fail leave the sheet as it was. -/
inductive SheetRun : List Cells → List SheetCell → Sheet → Prop where
  | created (now : Nat) : SheetRun [Table.empty] [] (Sheet.created now)
  | write {history tables : List Cells} {reports : List SheetCell} {sheet sheet' : Sheet}
      {actorName : String} {now : Nat} {cells : List CellWrite} {acc : WriteAcc}
      {result : WriteResult} (run : SheetRun history reports sheet)
      (batch : WriteRun actorName now sheet.beginWrite cells tables acc)
      (done : sheet.write actorName now cells = .ok (sheet', result)) :
      SheetRun (tables ++ history) (result.changed ++ result.conflicts ++ reports) sheet'
  | merge {history : List Cells} {reports : List SheetCell} {sheet sheet' : Sheet}
      {actorName : String} {now : Nat} {merge : SheetMerge} {merges : List SheetMerge}
      {changed : List SheetCell} (run : SheetRun history reports sheet)
      (done : sheet.merge actorName now merge = .ok (sheet', merges, changed)) :
      SheetRun (sheet'.cells :: history) (changed ++ reports) sheet'

/-- Value and format of a cell; an absent cell has neither. -/
abbrev Content := String × CellFormat

/-- Revision and content a client reads at a position. -/
def cellView (cells : Cells) (position : Nat × Nat) : Nat × Content :=
  match cells.get? position with
  | some cell => (cell.revision, cell.value, cell.format)
  | none => (0, "", {})

theorem cellView_some {cells : Cells} {position : Nat × Nat} {cell : CellRow}
    (found : cells.get? position = some cell) :
    cellView cells position = (cell.revision, cell.value, cell.format) := by
  rw [cellView, found]

theorem cellView_none {cells : Cells} {position : Nat × Nat}
    (absent : cells.get? position = none) : cellView cells position = (0, "", {}) := by
  rw [cellView, absent]

/-- A client has observed this content at a position under this revision: in the table of some
moment, or in a report. -/
def Observed (history : List Cells) (reports : List SheetCell) (position : Nat × Nat)
    (revision : Nat) (content : Content) : Prop :=
  (∃ cells ∈ history, cellView cells position = (revision, content)) ∨
    ∃ report ∈ reports, (report.row, report.col) = position ∧ report.revision = revision ∧
      (report.value, report.format) = content

/-- No step of the history creates a cell at a position that held one before. -/
def NoRecreation (position : Nat × Nat) (history : List Cells) : Prop :=
  ∀ newer new old older, history = newer ++ new :: old :: older →
    old.get? position = none → new.get? position ≠ none →
      ∀ cells ∈ older, cells.get? position = none

/-! ### A batch is a run of its writes -/

/-- A successful batch goes through all its writes. -/
theorem foldlM_writeCell {actorName : String} {now : Nat} {start acc : WriteAcc}
    {cells : List CellWrite} (done : cells.foldlM (writeCell actorName now) start = .ok acc) :
    ∃ tables, WriteRun actorName now start cells tables acc := by
  induction cells using List.reverseRecOn generalizing acc with
  | nil =>
      obtain rfl := pure_ok.mp done
      exact ⟨[], .nil⟩
  | append_singleton writes write ih =>
      rw [List.foldlM_append, bind_ok] at done
      obtain ⟨mid, before, last⟩ := done
      obtain ⟨tables, trace⟩ := ih before
      rw [List.foldlM_cons, bind_ok] at last
      obtain ⟨next, here, rest⟩ := last
      obtain rfl := pure_ok.mp rest
      exact ⟨next.cells :: tables, .snoc trace here⟩

theorem WriteRun.foldlM {actorName : String} {now : Nat} {start acc : WriteAcc}
    {cells : List CellWrite} {tables : List Cells}
    (trace : WriteRun actorName now start cells tables acc) :
    cells.foldlM (writeCell actorName now) start = .ok acc := by
  induction trace with
  | nil => rfl
  | snoc before done ih =>
      rw [List.foldlM_append, bind_ok]
      refine ⟨_, ih, ?_⟩
      rw [List.foldlM_cons, done]
      rfl

/-- Every successful batch extends a run. -/
theorem SheetRun.extend {history : List Cells} {reports : List SheetCell} {sheet sheet' : Sheet}
    {actorName : String} {now : Nat} {cells : List CellWrite} {result : WriteResult}
    (run : SheetRun history reports sheet)
    (done : sheet.write actorName now cells = .ok (sheet', result)) :
    ∃ tables, SheetRun (tables ++ history) (result.changed ++ result.conflicts ++ reports) sheet' := by
  by_cases none : cells = []
  · subst none
    exact ⟨[], run.write .nil done⟩
  · have written := done
    rw [Sheet.write, if_neg none, bind_ok] at written
    obtain ⟨acc, folded, _⟩ := written
    obtain ⟨tables, trace⟩ := foldlM_writeCell folded
    exact ⟨tables, run.write trace done⟩

/-- What a batch leaves behind. -/
theorem write_inv {sheet sheet' : Sheet} {actorName : String} {now : Nat}
    {cells : List CellWrite} {tables : List Cells} {acc : WriteAcc} {result : WriteResult}
    (batch : WriteRun actorName now sheet.beginWrite cells tables acc)
    (done : sheet.write actorName now cells = .ok (sheet', result)) :
    sheet'.cells = acc.cells ∧ result.changed = acc.changed ∧ result.conflicts = acc.conflicts := by
  have folded := batch.foldlM
  unfold Sheet.write at done
  split at done
  · rename_i none
    subst none
    obtain rfl := pure_ok.mp folded
    obtain ⟨rfl, rfl⟩ := Prod.mk.inj (Except.ok.inj done)
    exact ⟨rfl, rfl, rfl⟩
  · rw [folded] at done
    obtain ⟨rfl, rfl⟩ := Prod.mk.inj (Except.ok.inj done)
    exact ⟨rfl, rfl, rfl⟩

/-! ### Cells as registers -/

/-- The cell at a position with its revision as the version. -/
def register (position : Nat × Nat) (cells : Cells) : Option (Nat × CellRow) :=
  (cells.get? position).map (fun cell => (cell.revision, cell))

theorem register_eq_none {position : Nat × Nat} {cells : Cells} :
    register position cells = none ↔ cells.get? position = none := by
  simp [register]

theorem register_inj {position : Nat × Nat} {one two : Cells}
    (same : register position one = register position two) :
    one.get? position = two.get? position := by
  unfold register at same
  cases first : one.get? position with
  | none => cases second : two.get? position with
    | none => rfl
    | some cell => simp [first, second] at same
  | some cell => cases second : two.get? position with
    | none => simp [first, second] at same
    | some cell' =>
        simp only [first, second, Option.map_some, Option.some.injEq, Prod.mk.injEq] at same
        rw [same.2]

theorem register_some {position : Nat × Nat} {cells : Cells} {cell : CellRow}
    (found : cells.get? position = some cell) :
    register position cells = some (cell.revision, cell) := by
  rw [register, found]
  rfl

/-- One write moves each register at most once. -/
theorem writeCell_moves {actorName : String} {now : Nat} {acc next : WriteAcc} {write : CellWrite}
    (done : writeCell actorName now acc write = .ok next) (position : Nat × Nat) :
    Versioned.Move (register position acc.cells) (register position next.cells) := by
  by_cases same : position = write.position
  · subst same
    cases writeCell_outcome done with
    | stale => exact .stay _
    | missing => exact .stay _
    | nothing => exact .stay _
    | deleted cell found =>
        rw [register_some found, register, Table.get?_erase_self]
        exact .delete _ _
    | replaced cell found =>
        rw [register_some found, register, Table.get?_insert_self]
        exact .update _ _ _
    | created absent =>
        rw [register_eq_none.mpr absent, register, Table.get?_insert_self]
        exact .create _
  · have kept : next.cells.get? position = acc.cells.get? position := by
      cases writeCell_outcome done with
      | stale => rfl
      | missing => rfl
      | nothing => rfl
      | deleted => exact Table.get?_erase_of_ne _ same
      | replaced => exact Table.get?_insert_of_ne _ same _
      | created => exact Table.get?_insert_of_ne _ same _
    rw [register, register, kept]
    exact .stay _

/-- The loop of a merge deletes the covered cells and no others. -/
theorem deleteCell_get? (actorName : String) (now : Nat) (positions : List (Nat × Nat))
    (acc : Cells × List SheetCell) (position : Nat × Nat) :
    (positions.foldl (deleteCell actorName now) acc).1.get? position =
      if position ∈ positions then none else acc.1.get? position := by
  induction positions generalizing acc with
  | nil => simp
  | cons head rest ih =>
      rw [List.foldl_cons, ih]
      have here : (deleteCell actorName now acc head).1.get? position =
          if position = head then none else acc.1.get? position := by
        unfold deleteCell
        split
        · exact Table.get?_erase _ _ _
        · rename_i absent
          by_cases same : position = head
          · rw [if_pos same, same, absent]
          · rw [if_neg same]
      rw [here]
      by_cases same : position = head
      · simp [same]
      · simp [same]

/-- A merge reports deletions only: of covered cells that were there. -/
theorem deleteCell_reports {actorName : String} {now : Nat} {positions : List (Nat × Nat)}
    {acc : Cells × List SheetCell} {report : SheetCell}
    (member : report ∈ (positions.foldl (deleteCell actorName now) acc).2) :
    report ∈ acc.2 ∨ (report.value, report.format) = (("", {}) : Content) ∧
      (report.row, report.col) ∈ positions ∧ acc.1.get? (report.row, report.col) ≠ none := by
  induction positions generalizing acc with
  | nil => exact .inl member
  | cons head rest ih =>
      rw [List.foldl_cons] at member
      cases found : acc.1.get? head with
      | none =>
          have same : deleteCell actorName now acc head = acc := by rw [deleteCell, found]
          rw [same] at member
          rcases ih member with old | ⟨empty, covered, held⟩
          · exact .inl old
          · exact .inr ⟨empty, List.mem_cons_of_mem _ covered, held⟩
      | some cell =>
          have deleted : deleteCell actorName now acc head =
              (acc.1.erase head, acc.2 ++ [mergedCell actorName now head cell]) := by
            rw [deleteCell, found]
          rw [deleted] at member
          rcases ih member with old | ⟨empty, covered, held⟩
          · rcases List.mem_append.mp old with old | single
            · exact .inl old
            · obtain rfl := List.mem_singleton.mp single
              exact .inr ⟨rfl, List.mem_cons_self, by simp [mergedCell, found]⟩
          · refine .inr ⟨empty, List.mem_cons_of_mem _ covered, ?_⟩
            intro gone
            apply held
            rw [Table.get?_erase, gone]
            simp

/-! ### Invariants of a run -/

/-- Everything a client reads in a report was in the table at some moment, or tells of a cell
that was deleted. -/
def Reported (history : List Cells) (report : SheetCell) : Prop :=
  (∃ cells ∈ history, cellView cells (report.row, report.col) =
      (report.revision, report.value, report.format)) ∨
    (report.value, report.format) = (("", {}) : Content) ∧
      ∃ newer gone older, history = newer ++ gone :: older ∧
        gone.get? (report.row, report.col) = none ∧
        ∃ cells ∈ older, cells.get? (report.row, report.col) ≠ none

theorem Reported.extend {history : List Cells} {report : SheetCell}
    (reported : Reported history report) (tables : List Cells) :
    Reported (tables ++ history) report := by
  rcases reported with present | ⟨empty, newer, gone, older, rfl, none, held⟩
  · obtain ⟨cells, member, view⟩ := present
    exact .inl ⟨cells, List.mem_append_right _ member, view⟩
  · exact .inr ⟨empty, tables ++ newer, gone, older, by simp, none, held⟩

/-- What holds of the tables and reports of a run. -/
structure RunInv (history : List Cells) (reports : List SheetCell) (current : Cells) : Prop where
  newest : ∃ older, history = current :: older
  moves : ∀ position, Versioned.History (history.map (register position))
  oldest : history.getLast? = some Table.empty
  reported : ∀ report ∈ reports, Reported history report

/-- A table reached by one move of each register extends the invariant. -/
theorem RunInv.push {history : List Cells} {reports reports' : List SheetCell}
    {current next : Cells} (inv : RunInv history reports current)
    (move : ∀ position, Versioned.Move (register position current) (register position next))
    (fresh : ∀ report ∈ reports', report ∈ reports ∨ Reported (next :: history) report) :
    RunInv (next :: history) reports' next := by
  obtain ⟨older, rfl⟩ := inv.newest
  refine ⟨⟨_, rfl⟩, ?_, ?_, ?_⟩
  · intro position
    exact List.isChain_cons_cons.mpr ⟨move position, inv.moves position⟩
  · rw [List.getLast?_cons_cons]
    exact inv.oldest
  · intro report member
    rcases fresh report member with old | new
    · exact (inv.reported report old).extend [next]
    · exact new

/-- What a write adds to the reports can be read in the table before or after it, or tells of its
deletion. -/
theorem writeCell_reports {actorName : String} {now : Nat} {acc next : WriteAcc}
    {write : CellWrite} (done : writeCell actorName now acc write = .ok next)
    (older : List Cells) {report : SheetCell} (member : report ∈ next.changed ++ next.conflicts) :
    report ∈ acc.changed ++ acc.conflicts ∨
      Reported (next.cells :: acc.cells :: older) report := by
  rw [List.mem_append] at member ⊢
  cases writeCell_outcome done with
  | nothing => exact .inl member
  | stale cell found differ =>
      rcases member with old | member
      · exact .inl (.inl old)
      rcases List.mem_append.mp member with old | single
      · exact .inl (.inr old)
      · obtain rfl := List.mem_singleton.mp single
        refine .inr (.inl ⟨acc.cells, by simp, ?_⟩)
        have same : acc.cells.get? (write.row, write.col) = some cell := found
        simp [cellView, CellRow.toSheetCell, same]
  | missing absent differ =>
      rcases member with old | member
      · exact .inl (.inl old)
      rcases List.mem_append.mp member with old | single
      · exact .inl (.inr old)
      · obtain rfl := List.mem_singleton.mp single
        refine .inr (.inl ⟨acc.cells, by simp, ?_⟩)
        have same : acc.cells.get? (write.row, write.col) = none := absent
        simp [cellView, absentCell, same]
  | deleted cell found same nothing =>
      rcases member with member | old
      · rcases List.mem_append.mp member with old | single
        · exact .inl (.inl old)
        · obtain rfl := List.mem_singleton.mp single
          refine .inr (.inr ⟨?_, [], _, acc.cells :: older, rfl, ?_, acc.cells, by simp, ?_⟩)
          · simp [writtenCell, nothing.1, CellFormat.isDefault_iff.mp nothing.2]
          · exact Table.get?_erase_self _ _
          · have held : acc.cells.get? (write.row, write.col) = some cell := found
            simp [writtenCell, held]
      · exact .inl (.inr old)
  | replaced cell found same something =>
      rcases member with member | old
      · rcases List.mem_append.mp member with old | single
        · exact .inl (.inl old)
        · obtain rfl := List.mem_singleton.mp single
          refine .inr (.inl ⟨_, List.mem_cons_self, ?_⟩)
          simp [cellView, writtenCell, writtenRow, CellWrite.position]
      · exact .inl (.inr old)
  | created absent same room something =>
      rcases member with member | old
      · rcases List.mem_append.mp member with old | single
        · exact .inl (.inl old)
        · obtain rfl := List.mem_singleton.mp single
          refine .inr (.inl ⟨_, List.mem_cons_self, ?_⟩)
          simp [cellView, writtenCell, writtenRow, CellWrite.position]
      · exact .inl (.inr old)

/-- The invariant holds after each write of a batch. -/
theorem WriteRun.runInv {history tables : List Cells} {reports : List SheetCell} {sheet : Sheet}
    {actorName : String} {now : Nat} {cells : List CellWrite} {acc : WriteAcc}
    (inv : RunInv history reports sheet.cells)
    (batch : WriteRun actorName now sheet.beginWrite cells tables acc) :
    RunInv (tables ++ history) (acc.changed ++ acc.conflicts ++ reports) acc.cells := by
  induction batch with
  | nil => exact inv
  | @snoc writes tables acc next write before done ih =>
      obtain ⟨older, shape⟩ := ih.newest
      apply ih.push (writeCell_moves done)
      intro report member
      rcases List.mem_append.mp member with new | old
      · rw [shape]
        rcases writeCell_reports done older new with old | reported
        · exact .inl (List.mem_append_left _ old)
        · exact .inr reported
      · exact .inl (List.mem_append_right _ old)

/-- The invariant holds throughout a run. -/
theorem SheetRun.runInv {history : List Cells} {reports : List SheetCell} {sheet : Sheet}
    (run : SheetRun history reports sheet) : RunInv history reports sheet.cells := by
  induction run with
  | created now =>
      refine ⟨⟨[], rfl⟩, ?_, rfl, ?_⟩
      · intro position
        exact List.isChain_singleton _
      · intro report member
        cases member
  | write run batch done ih =>
      obtain ⟨cells, changed, conflicts⟩ := write_inv batch done
      rw [cells, changed, conflicts]
      exact batch.runInv ih
  | @merge history reports sheet sheet' actorName now merge merges changed run done ih =>
      obtain ⟨_, _, cells, _, _, rfl⟩ := merge_inv done
      obtain ⟨older, shape⟩ := ih.newest
      have deleted (position : Nat × Nat) : sheet'.cells.get? position =
          if position ∈ merge.covered then none else sheet.cells.get? position := by
        rw [cells]
        exact deleteCell_get? ..
      apply ih.push
      · intro position
        rw [register, register, deleted]
        split
        · cases sheet.cells.get? position with
          | none => exact .stay _
          | some cell => exact .delete _ _
        · exact .stay _
      · intro report member
        rcases List.mem_append.mp member with new | old
        · rcases deleteCell_reports new with none | ⟨empty, covered, held⟩
          · cases none
          · refine .inr (.inr ⟨empty, [], _, history, rfl, ?_, sheet.cells, by simp [shape], held⟩)
            rw [deleted, if_pos covered]
        · exact .inl old

/-! ### The content a write replaces -/

theorem NoRecreation.fresh {position : Nat × Nat} {history : List Cells}
    (kept : NoRecreation position history) : Versioned.Fresh (history.map (register position)) := by
  induction history with
  | nil => trivial
  | cons new rest ih =>
      have later : NoRecreation position rest := by
        intro newer new' old older shape
        exact kept (new :: newer) new' old older (by rw [shape]; rfl)
      cases rest with
      | nil => trivial
      | cons old older =>
          refine ⟨?_, ih later⟩
          intro absent held value member
          obtain ⟨cells, listed, rfl⟩ := List.mem_map.mp member
          apply register_eq_none.mpr
          exact kept [] new old older rfl (register_eq_none.mp absent)
            (fun none => held (register_eq_none.mpr none)) cells listed

/-- A write that is not reported as a conflict named the revision of the cell, or 0 for none. -/
theorem writeCell_applied {actorName : String} {now : Nat} {acc next : WriteAcc}
    {write : CellWrite} (done : writeCell actorName now acc write = .ok next)
    (applied : next.conflicts = acc.conflicts) :
    (cellView acc.cells write.position).1 = write.baseRevision := by
  cases writeCell_outcome done with
  | stale => simp at applied
  | missing => simp at applied
  | nothing absent same => rw [cellView_none absent, same]
  | created absent same => rw [cellView_none absent, same]
  | deleted cell found same => rw [cellView_some found, same]
  | replaced cell found same => rw [cellView_some found, same]

/-- Cells of a run carry positive revisions, so revision 0 means an absent cell. -/
theorem RunInv.revision_pos {history : List Cells} {reports : List SheetCell} {current : Cells}
    (inv : RunInv history reports current) {cells : Cells} (member : cells ∈ history)
    {position : Nat × Nat} {cell : CellRow} (found : cells.get? position = some cell) :
    1 ≤ cell.revision := by
  have start : (history.map (register position)).getLast? = some none := by
    rw [List.getLast?_map, inv.oldest]
    rfl
  have listed : some (cell.revision, cell) ∈ history.map (register position) :=
    List.mem_map.mpr ⟨cells, member, register_some found⟩
  exact Versioned.version_pos (inv.moves position) start listed

theorem RunInv.absent_of_view {history : List Cells} {reports : List SheetCell} {current : Cells}
    (inv : RunInv history reports current) {cells : Cells} (member : cells ∈ history)
    {position : Nat × Nat} (zero : (cellView cells position).1 = 0) :
    cells.get? position = none := by
  cases found : cells.get? position with
  | none => rfl
  | some cell =>
      have positive := inv.revision_pos member found
      rw [cellView_some found] at zero
      exact absurd zero (Nat.ne_of_gt positive)

/-- Without re-creation, an earlier table in which the cell has its present revision holds the
present cell, and so do all tables since. -/
theorem RunInv.unchanged {history : List Cells} {reports : List SheetCell} {current : Cells}
    (inv : RunInv history reports current) {position : Nat × Nat}
    (kept : NoRecreation position history) {cell : CellRow}
    (found : current.get? position = some cell) {newer older : List Cells} {before : Cells}
    (split : history = newer ++ before :: older)
    (same : (cellView before position).1 = cell.revision) :
    before.get? position = some cell ∧ ∀ cells ∈ newer, cells.get? position = some cell := by
  obtain ⟨rest, newest⟩ := inv.newest
  have positive := inv.revision_pos (newest ▸ List.mem_cons_self) found
  have history := inv.moves position
  have fresh := kept.fresh
  cases held : before.get? position with
  | none =>
      rw [cellView_none held] at same
      exact absurd same (Nat.ne_of_lt positive)
  | some earlier =>
      rw [cellView_some held] at same
      cases newer with
      | nil =>
          obtain ⟨rfl, rfl⟩ := List.cons.inj (newest.symm.trans split)
          rw [found] at held
          exact ⟨held.symm, by simp⟩
      | cons head newer =>
          obtain ⟨rfl, _⟩ := List.cons.inj (newest.symm.trans split)
          rw [split, List.map_append, List.map_cons, List.map_cons, register_some held,
            register_some found] at history fresh
          obtain ⟨_, since⟩ := Versioned.unchanged_since history fresh
          obtain ⟨rfl, all⟩ := since same
          refine ⟨rfl, ?_⟩
          intro cells member
          rcases List.mem_cons.mp member with rfl | member
          · exact found
          · have value := all _ (List.mem_map_of_mem member)
            rw [← register_some found] at value
            rw [register_inj value, found]

/-- Without re-creation, nothing tells of a deletion of a cell that is there. -/
theorem RunInv.not_deleted {history : List Cells} {reports : List SheetCell} {current : Cells}
    (inv : RunInv history reports current) {position : Nat × Nat}
    (kept : NoRecreation position history) (held : current.get? position ≠ none)
    {newer older : List Cells} {gone : Cells} (split : history = newer ++ gone :: older)
    (absent : gone.get? position = none) : ∀ cells ∈ older, cells.get? position = none := by
  obtain ⟨rest, newest⟩ := inv.newest
  obtain ⟨cell, found⟩ := Option.ne_none_iff_exists'.mp held
  have history := inv.moves position
  have fresh := kept.fresh
  cases newer with
  | nil =>
      obtain ⟨rfl, rfl⟩ := List.cons.inj (newest.symm.trans split)
      exact absurd absent held
  | cons head newer =>
      obtain ⟨rfl, _⟩ := List.cons.inj (newest.symm.trans split)
      rw [split, List.map_append, List.map_cons, List.map_cons, register_eq_none.mpr absent,
        register_some found] at history fresh
      intro cells member
      exact register_eq_none.mp
        (Versioned.empty_before history fresh _ (List.mem_map_of_mem member))

/-- What was observed under the present revision of a cell is what the cell holds. -/
theorem RunInv.observed {history : List Cells} {reports : List SheetCell} {current : Cells}
    (inv : RunInv history reports current) {position : Nat × Nat}
    (kept : NoRecreation position history) {content : Content}
    (observed : Observed history reports position (cellView current position).1 content) :
    content = (cellView current position).2 := by
  have read (cells : Cells) (member : cells ∈ history)
      (view : cellView cells position = ((cellView current position).1, content)) :
      content = (cellView current position).2 := by
    have revision : (cellView cells position).1 = (cellView current position).1 := by rw [view]
    have shown : content = (cellView cells position).2 := by rw [view]
    obtain ⟨newer, older, split⟩ := List.append_of_mem member
    have same : cells.get? position = current.get? position := by
      cases found : current.get? position with
      | some cell =>
          rw [cellView_some found] at revision
          exact (inv.unchanged kept found split revision).1
      | none =>
          rw [cellView_none found] at revision
          exact inv.absent_of_view member revision
    rw [shown, cellView, cellView, same]
  rcases observed with ⟨cells, member, view⟩ | ⟨report, member, rfl, revision, rfl⟩
  · exact read cells member view
  · rcases inv.reported report member with present | ⟨empty, newer, gone, older, split, absent, held⟩
    · obtain ⟨cells, member, view⟩ := present
      exact read cells member (by rw [view, revision])
    · cases found : current.get? (report.row, report.col) with
      | none => rw [empty, cellView_none found]
      | some cell =>
          -- a reported deletion of a cell that is there would have been undone by a creation
          obtain ⟨cells, member, present⟩ := held
          have all := inv.not_deleted kept (by simp [found]) split absent
          exact absurd (all cells member) present

/-- In a run in which no write creates a cell where one was before, a write that is applied
replaces the content every client has observed under the revision it names, and a write that
changes the cell finds it as it was whenever it had this revision. -/
theorem write_replaces_observed {history tables : List Cells} {reports : List SheetCell}
    {sheet : Sheet} {actorName : String} {now : Nat} {earlier : List CellWrite}
    {acc next : WriteAcc} {write : CellWrite} (run : SheetRun history reports sheet)
    (batch : WriteRun actorName now sheet.beginWrite earlier tables acc)
    (done : writeCell actorName now acc write = .ok next)
    (applied : next.conflicts = acc.conflicts)
    (kept : NoRecreation write.position (next.cells :: tables ++ history)) :
    (∀ content, Observed (tables ++ history) (acc.changed ++ acc.conflicts ++ reports)
        write.position write.baseRevision content →
      content = (cellView acc.cells write.position).2) ∧
    (next.cells.get? write.position ≠ acc.cells.get? write.position →
      ∀ newer before older, tables ++ history = newer ++ before :: older →
        (cellView before write.position).1 = write.baseRevision →
          ∀ cells ∈ newer, cells.get? write.position = before.get? write.position) := by
  have inv := batch.runInv run.runInv
  have base := writeCell_applied done applied
  have before : NoRecreation write.position (tables ++ history) := by
    intro newer new old older split
    exact kept (next.cells :: newer) new old older (by simp [split])
  constructor
  · intro content observed
    rw [← base] at observed
    exact inv.observed before observed
  · intro changed newer then_ older split same cells member
    obtain ⟨rest, newest⟩ := inv.newest
    cases found : acc.cells.get? write.position with
    | some cell =>
        have revision : (cellView then_ write.position).1 = cell.revision := by
          rw [same, ← base, cellView_some found]
        obtain ⟨held, all⟩ := inv.unchanged before found split revision
        rw [held, all cells member]
    | none =>
        -- the write creates the cell, so there has been none at any time before
        have created : next.cells.get? write.position ≠ none := by
          rw [found] at changed
          exact changed
        have never : ∀ table ∈ tables ++ history, table.get? write.position = none := by
          rw [newest]
          intro table listed
          rcases List.mem_cons.mp listed with rfl | listed
          · exact found
          · exact kept [] next.cells acc.cells rest (by simp [newest]) found created table listed
        rw [never cells (by simp [split, member]), never then_ (by simp [split])]

/-! ### A cell deleted and created again -/

/-- A write of one value to the first cell. -/
def firstCell (value : String) (baseRevision : Nat) : CellWrite where
  row := 0
  col := 0
  value := value
  baseRevision := baseRevision

/-- A sheet whose first cell holds a value in revision 1. -/
def sheetHolding (actorName : String) (now : Nat) (value : String) : Sheet where
  cells := Table.empty.insert (0, 0) (writtenRow actorName now (firstCell value 0) 1 {})
  merges := []
  updatedAt := now

/-- Alice sees revision 1 of a cell; Bob deletes the cell and creates it again, which gives
revision 1 once more; Alice's write on revision 1 then replaces what Bob wrote. -/
theorem write_replaces_recreated :
    ¬ ∀ history tables reports sheet actorName now earlier acc next write,
      SheetRun history reports sheet →
      WriteRun actorName now sheet.beginWrite earlier tables acc →
      writeCell actorName now acc write = .ok next → next.conflicts = acc.conflicts →
      ∀ content, Observed (tables ++ history) (acc.changed ++ acc.conflicts ++ reports)
          write.position write.baseRevision content →
        content = (cellView acc.cells write.position).2 := by
  intro claim
  have created : (Sheet.created 0).write "alice" 1 [firstCell "a" 0] =
      .ok (sheetHolding "alice" 1 "a",
        { applied := 1, conflicts := [], changed := [writtenCell "alice" 1 (firstCell "a" 0) 1 {}] }) :=
    rfl
  have deleted : (sheetHolding "alice" 1 "a").write "bob" 2 [firstCell "" 1] =
      .ok (Sheet.created 2,
        { applied := 1, conflicts := [], changed := [writtenCell "bob" 2 (firstCell "" 1) 2 {}] }) :=
    rfl
  have recreated : (Sheet.created 2).write "bob" 3 [firstCell "b" 0] =
      .ok (sheetHolding "bob" 3 "b",
        { applied := 1, conflicts := [], changed := [writtenCell "bob" 3 (firstCell "b" 0) 1 {}] }) :=
    rfl
  obtain ⟨one, run⟩ := (SheetRun.created 0).extend created
  obtain ⟨older, seen⟩ := run.runInv.newest
  obtain ⟨two, run⟩ := run.extend deleted
  obtain ⟨three, run⟩ := run.extend recreated
  have member : (sheetHolding "alice" 1 "a").cells ∈ [] ++ (three ++ (two ++ (one ++ [Table.empty]))) := by
    simp [seen]
  have same : (("a", {}) : Content) = ("b", {}) :=
    claim _ _ _ _ "alice" 4 [] _ _ (firstCell "c" 1) run .nil rfl rfl ("a", {})
      (.inl ⟨_, member, rfl⟩)
  simp at same

/-- The first write to a new sheet. -/
theorem write_replaces_observed_first :
    (∀ content, Observed [Table.empty] [] (0, 0) 0 content → content = ("", {})) ∧
      ((sheetHolding "alice" 1 "a").cells.get? (0, 0) ≠ (Table.empty : Cells).get? (0, 0) →
        ∀ newer before older, [Table.empty] = newer ++ before :: older →
          (cellView before (0, 0)).1 = 0 →
            ∀ cells ∈ newer, cells.get? (0, 0) = before.get? (0, 0)) := by
  have done : writeCell "alice" 1 (Sheet.created 0).beginWrite (firstCell "a" 0) =
      .ok {
        cells := (sheetHolding "alice" 1 "a").cells
        currentCount := 1
        applied := 1
        changed := [writtenCell "alice" 1 (firstCell "a" 0) 1 {}] } := rfl
  have kept : NoRecreation (firstCell "a" 0).position
      ((sheetHolding "alice" 1 "a").cells :: [] ++ [Table.empty]) := by
    intro newer new old older split
    have length := congrArg List.length split
    simp only [List.length_append, List.length_cons, List.length_nil] at length
    have none : older = [] := List.length_eq_zero_iff.mp (by omega)
    simp [none]
  exact write_replaces_observed (SheetRun.created 0) .nil done rfl kept

end PeerCove
