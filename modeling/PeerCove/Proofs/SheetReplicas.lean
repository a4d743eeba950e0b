/-
Module: PeerCove.Proofs.SheetReplicas
Layer: Proofs
Purpose: A member's copy of the sheets follows the events of the host in the order in which they
  arrive, and ends as the host's sheets exactly when that order agrees with the order of commits.
Trusted boundary: none
Main exports: commitAll, Replica, sheet_converges_iff
-/
import PeerCove.Host.ServiceTasks
import PeerCove.Library.LastWrite
import PeerCove.Proofs.SheetMerges
import PeerCove.Proofs.SheetReplay

namespace PeerCove

open Fallible LastWrite SheetCache Stateful

/-! ### Commits and their events -/

/-- The event of an announcement about a sheet. -/
def Effect.sheetEvent? : Effect → Option SheetEventMsg
  | .announce (.sheet event) _ => some event
  | _ => none

/-- What a request on sheets announces once it is committed. -/
def SheetCall.events (call : SheetCall) (db : SharedDb) : List SheetEventMsg :=
  match (SharedStore.performSheet call.env call.actor call.op db).1 with
  | .ok (reply, merges, cells) =>
      (ServiceTask.announceSheet merges cells call.op reply).filterMap Effect.sheetEvent?
  | .error _ => []

/-- Requests committed one after the other, and their events in that order. -/
def commitAll : List SheetCall → SharedDb → SharedDb × List SheetEventMsg
  | [], db => (db, [])
  | call :: calls, db =>
      ((commitAll calls (call.perform db)).1,
        call.events db ++ (commitAll calls (call.perform db)).2)

/-- Events received in an order. -/
def receiveAll (events : List SheetEventMsg) (cache : SheetCache) : SheetCache :=
  events.foldl applyEvent cache

/-- The requests that edit cells and merged ranges. -/
inductive SheetOp.Edits : SheetOp → Prop where
  | write (id : String) (cells : List CellWrite) : Edits (.write id cells)
  | merge (id : String) (merge : SheetMerge) : Edits (.merge id merge)
  | unmerge (id : String) (row col : Nat) : Edits (.unmerge id row col)

/-! ### Host and member as registers -/

/-- What a report leaves at its position. -/
def SheetCell.stored (cell : SheetCell) : Option CellRow :=
  if cell.isEmpty then none else some cell.toRow

/-- The cells of all sheets of the host. -/
def hostCells (db : SharedDb) (key : String × Nat × Nat) : Option CellRow :=
  (db.sheets.get? key.1).bind (fun row => row.sheet.cells.get? key.2)

/-- The merged ranges of a sheet of the host. -/
def hostMerges (db : SharedDb) (id : String) : Set SheetMerge :=
  fun merge => ∃ row, db.sheets.get? id = some row ∧ merge ∈ row.sheet.merges

/-- What an event says about cells. -/
def cellUpdates : SheetEventMsg → List ((String × Nat × Nat) × Option CellRow)
  | .cellsChanged id cells => cells.map (fun cell => ((id, cell.position), cell.stored))
  | _ => []

/-- What an event says about merged ranges. -/
def mergeUpdates : SheetEventMsg → List (String × Set SheetMerge)
  | .merges id merges => [(id, fun merge => merge ∈ merges)]
  | _ => []

/-- The member's copy of a sheet holds the cells and merged ranges of the host. -/
structure Replica (cache : SheetCache) (db : SharedDb) (id : String) : Prop where
  cells : ∀ position, (cache.cellsOf id).get? position = hostCells db (id, position)
  merges : ∀ merge, merge ∈ cache.mergesOf id ↔ merge ∈ hostMerges db id

/-! ### The copy -/

theorem applyCell_cells (id : String) (cache : SheetCache) (cell : SheetCell) :
    (applyCell id cache cell).sheetCells.get? =
      overwrite cache.sheetCells.get? ((id, cell.position), cell.stored) := by
  funext key
  unfold applyCell overwrite SheetCell.stored
  split
  · exact Table.get?_erase ..
  · exact Table.get?_insert ..

theorem sheetCellsApply_overwrites (id : String) (cells : List SheetCell) (cache : SheetCache) :
    (cache.sheetCellsApply id cells).sheetCells.get? =
      overwriteAll (cellUpdates (.cellsChanged id cells)) cache.sheetCells.get? := by
  induction cells generalizing cache with
  | nil => rfl
  | cons cell rest ih =>
      refine (ih (applyCell id cache cell)).trans ?_
      rw [applyCell_cells]
      rfl

theorem sheetCellsApply_merges (id : String) (cells : List SheetCell) (cache : SheetCache) :
    (cache.sheetCellsApply id cells).sheetMerges = cache.sheetMerges := by
  induction cells generalizing cache with
  | nil => rfl
  | cons cell rest ih =>
      refine (ih (applyCell id cache cell)).trans ?_
      unfold applyCell
      split
      · rfl
      · rfl

theorem mem_mergesOf {cache : SheetCache} {id : String} {merge : SheetMerge} :
    merge ∈ cache.mergesOf id ↔
      cache.sheetMerges.get? (id, merge.row, merge.col) = some (merge.rowSpan, merge.colSpan) := by
  rcases merge with ⟨row, col, rowSpan, colSpan⟩
  unfold mergesOf
  rw [List.mem_insertionSort, List.mem_map]
  simp only
  rw [← Table.get?_project, Table.get?_eq_some]
  constructor
  · intro listed
    rcases listed with ⟨⟨⟨row, col⟩, rowSpan, colSpan⟩, member, same⟩
    cases same
    exact member
  · intro member
    exact ⟨_, member, rfl⟩

/-- The anchors of merged ranges that no two share. -/
def Anchored (merges : List SheetMerge) : Prop :=
  (merges.map (fun merge => (merge.row, merge.col))).Nodup

/-- Ranges inserted under free anchors are added to those that are there. -/
theorem insertMerges_run {id : String} {merges : List SheetMerge} (anchored : Anchored merges)
    (cache : SheetCache)
    (free : ∀ merge ∈ merges, cache.sheetMerges.get? (id, merge.row, merge.col) = none) :
    ∃ cache', merges.forM (insertMerge id) cache = (.ok (), cache') ∧
      cache'.sheetCells = cache.sheetCells ∧
      ∀ key spans, cache'.sheetMerges.get? key = some spans ↔
        cache.sheetMerges.get? key = some spans ∨
          ∃ merge ∈ merges, key = (id, merge.row, merge.col) ∧
            spans = (merge.rowSpan, merge.colSpan) := by
  induction merges generalizing cache with
  | nil => exact ⟨cache, rfl, rfl, fun key spans => by simp⟩
  | cons merge rest ih =>
      rcases List.nodup_cons.mp anchored with ⟨fresh, anchored⟩
      have vacant := free merge List.mem_cons_self
      have inserted : insertMerge id merge cache = (.ok (), { cache with
          sheetMerges := cache.sheetMerges.insert (id, merge.row, merge.col)
            (merge.rowSpan, merge.colSpan) }) := by
        unfold insertMerge
        refine (run_bind (ok_query.mpr ⟨rfl, rfl⟩)).trans ?_
        exact (run_bind (run_refuse (by simp [vacant]) _ _)).trans rfl
      have still : ∀ other ∈ rest, (cache.sheetMerges.insert (id, merge.row, merge.col)
          (merge.rowSpan, merge.colSpan)).get? (id, other.row, other.col) = none := by
        intro other listed
        rw [Table.get?_insert_of_ne]
        · exact free other (List.mem_cons_of_mem _ listed)
        · intro same
          apply fresh
          have anchor : (other.row, other.col) = (merge.row, merge.col) :=
            congrArg Prod.snd same
          exact List.mem_map.mpr ⟨other, listed, anchor⟩
      rcases ih anchored ({ cache with
          sheetMerges := cache.sheetMerges.insert (id, merge.row, merge.col)
            (merge.rowSpan, merge.colSpan) } : SheetCache) still with ⟨cache', ran, cells, found⟩
      refine ⟨cache', (run_bind inserted).trans ran, cells, ?_⟩
      intro key spans
      rw [found, Table.get?_insert]
      simp only [List.mem_cons, exists_eq_or_imp]
      by_cases same : key = (id, merge.row, merge.col)
      · subst same
        simp [vacant, eq_comm]
      · simp [same]

/-- A list of ranges takes the place of the ranges of its sheet, and of no other. -/
theorem sheetMergesReplaceAll_spec {id : String} {merges : List SheetMerge}
    (anchored : Anchored merges) (cache : SheetCache) :
    ∃ cache', sheetMergesReplaceAll id merges cache = (.ok (), cache') ∧
      cache'.sheetCells = cache.sheetCells ∧
      ∀ other merge, merge ∈ cache'.mergesOf other ↔
        if other = id then merge ∈ merges else merge ∈ cache.mergesOf other := by
  have cleared (key : String × Nat × Nat) :
      (cache.sheetMerges.filter (fun key _ => decide (key.1 ≠ id))).get? key =
        if key.1 = id then none else cache.sheetMerges.get? key := by
    rw [Table.get?_filter]
    by_cases same : key.1 = id
    · simp [same]
    · cases cache.sheetMerges.get? key with
      | none => simp [same]
      | some spans => simp [same]
  rcases insertMerges_run anchored ({ cache with
      sheetMerges := cache.sheetMerges.filter (fun key _ => decide (key.1 ≠ id)) } : SheetCache)
    (fun merge _ => by rw [cleared, if_pos rfl]) with ⟨cache', ran, cells, found⟩
  refine ⟨cache', (run_bind (run_execute _ _)).trans ran, cells, ?_⟩
  intro other merge
  rw [mem_mergesOf, mem_mergesOf, found, cleared]
  by_cases same : other = id
  · subst same
    rw [if_pos rfl, if_pos rfl]
    constructor
    · intro stored
      rcases stored with absurd | ⟨listed, member, anchor, spans⟩
      · cases absurd
      · rcases merge with ⟨row, col, rowSpan, colSpan⟩
        rcases listed with ⟨row', col', rowSpan', colSpan'⟩
        simp only [Prod.mk.injEq] at anchor spans
        rcases anchor with ⟨_, rfl, rfl⟩
        rcases spans with ⟨rfl, rfl⟩
        exact member
    · intro member
      exact .inr ⟨merge, member, rfl, rfl⟩
  · rw [if_neg same, if_neg same]
    constructor
    · intro stored
      rcases stored with old | ⟨listed, _, anchor, _⟩
      · exact old
      · exact absurd (congrArg Prod.fst anchor) same
    · exact .inl

/-- Merged ranges of a copy as registers, one for each sheet. -/
def copyMerges (cache : SheetCache) (id : String) : Set SheetMerge :=
  fun merge => merge ∈ cache.mergesOf id

/-- Events whose lists of ranges a copy can store. -/
def Storable (event : SheetEventMsg) : Prop :=
  match event with
  | .cellsChanged _ _ => True
  | .merges _ merges => Anchored merges
  | _ => False

/-- An event overwrites the cells and ranges it tells about. -/
theorem applyEvent_overwrites {event : SheetEventMsg} (storable : Storable event)
    (cache : SheetCache) :
    (applyEvent cache event).sheetCells.get? =
        overwriteAll (cellUpdates event) cache.sheetCells.get? ∧
      copyMerges (applyEvent cache event) =
        overwriteAll (mergeUpdates event) (copyMerges cache) := by
  cases event with
  | cellsChanged id cells =>
      refine ⟨sheetCellsApply_overwrites id cells cache, ?_⟩
      funext other
      unfold copyMerges mergesOf
      rw [applyEvent, sheetCellsApply_merges]
      rfl
  | merges id merges =>
      rcases sheetMergesReplaceAll_spec storable cache with ⟨cache', ran, cells, found⟩
      rw [applyEvent, ran]
      refine ⟨congrArg Table.get? cells, ?_⟩
      funext other
      ext merge
      refine (found other merge).trans ?_
      change _ ↔ merge ∈ (if other = id then _ else _)
      split
      · rfl
      · rfl
  | sheetChanged sheet => cases storable
  | sheetRemoved id => cases storable
  | layout id widths heights => cases storable
  | presence id peers => cases storable

/-- Events overwrite what they tell about in the order in which they arrive. -/
theorem receiveAll_overwrites {events : List SheetEventMsg}
    (storable : ∀ event ∈ events, Storable event) (cache : SheetCache) :
    (receiveAll events cache).sheetCells.get? =
        overwriteAll (events.flatMap cellUpdates) cache.sheetCells.get? ∧
      copyMerges (receiveAll events cache) =
        overwriteAll (events.flatMap mergeUpdates) (copyMerges cache) := by
  induction events generalizing cache with
  | nil => exact ⟨rfl, rfl⟩
  | cons event rest ih =>
      rcases applyEvent_overwrites (storable event List.mem_cons_self) cache with ⟨cells, merges⟩
      rcases ih (fun other listed => storable other (List.mem_cons_of_mem _ listed))
        (applyEvent cache event) with ⟨laterCells, laterMerges⟩
      rw [List.flatMap_cons, List.flatMap_cons, overwriteAll_append, overwriteAll_append,
        ← cells, ← merges]
      exact ⟨laterCells, laterMerges⟩

/-! ### The host -/

/-- The anchors of ranges that share no cell are different. -/
theorem RangesSound.anchored {merges : List SheetMerge} (sound : RangesSound merges) :
    Anchored merges := by
  unfold Anchored
  rw [List.Nodup, List.pairwise_map]
  apply sound.apart.imp_of_mem
  intro one two first second apart same
  rcases Prod.mk.inj same with ⟨rows, cols⟩
  have here := (sound.fits one first).anchored
  have there := (sound.fits two second).anchored
  rw [← rows, ← cols] at there
  exact apart one.row one.col ⟨here, there⟩

/-- A patched sheet is its cells overwritten. -/
theorem hostCells_setSheet {db : SharedDb} {id : String} {row : SheetRow} {sheet : Sheet}
    {changed : List SheetCell} (present : db.sheets.get? id = some row)
    (patched : sheet.cells = patchCells row.sheet.cells changed) :
    hostCells (SharedStore.setSheet id (fun row => { row with sheet := sheet }) db) =
      overwriteAll (cellUpdates (.cellsChanged id changed)) (hostCells db) := by
  -- all cells, with those of one sheet in its place
  let placed (cells : Cells) (key : String × Nat × Nat) : Option CellRow :=
    if key.1 = id then cells.get? key.2 else hostCells db key
  have before : placed row.sheet.cells = hostCells db := by
    funext key
    change (if key.1 = id then _ else _) = _
    split
    · rename_i same
      rw [hostCells, same, present]
      rfl
    · rfl
  have after : hostCells (SharedStore.setSheet id (fun row => { row with sheet := sheet }) db) =
      placed sheet.cells := by
    funext key
    change _ = if key.1 = id then _ else _
    rw [hostCells, SharedStore.setSheet, Table.get?_update]
    split
    · rename_i same
      rw [same, present]
      rfl
    · rfl
  have step (cells : Cells) (cell : SheetCell) : placed (patchCell cells cell) =
      overwrite (placed cells) ((id, cell.position), cell.stored) := by
    funext key
    change (if key.1 = id then (patchCell cells cell).get? key.2 else _) =
      if key = (id, cell.position) then _ else if key.1 = id then _ else _
    rw [patchCell_get?]
    by_cases same : key.1 = id
    · by_cases here : key.2 = cell.position
      · rw [if_pos same, if_pos here, if_pos (Prod.ext same here)]
        rfl
      · rw [if_pos same, if_neg here, if_neg (fun both => here (congrArg Prod.snd both)),
          if_pos same]
    · rw [if_neg same, if_neg (fun both => same (congrArg Prod.fst both)), if_neg same]
  rw [after, ← before, patched]
  clear after before patched
  generalize row.sheet.cells = cells
  induction changed generalizing cells with
  | nil => rfl
  | cons cell rest ih =>
      refine (ih (patchCell cells cell)).trans ?_
      rw [step]
      rfl

/-- A sheet put in place of another has its own ranges. -/
theorem hostMerges_setSheet {db : SharedDb} {id : String} {row : SheetRow} {sheet : Sheet}
    (present : db.sheets.get? id = some row) :
    hostMerges (SharedStore.setSheet id (fun row => { row with sheet := sheet }) db) =
      overwrite (hostMerges db) (id, fun merge => merge ∈ sheet.merges) := by
  funext other
  change _ = if other = id then _ else _
  ext merge
  change (∃ row, _) ↔ _
  rw [SharedStore.setSheet, Table.get?_update]
  split
  · rename_i same
    subst same
    rw [present]
    constructor
    · intro held
      rcases held with ⟨row', found, listed⟩
      obtain rfl := Option.some.inj found
      exact listed
    · exact fun listed => ⟨_, rfl, listed⟩
  · exact Iff.rfl

theorem hostMerges_kept {db : SharedDb} {id : String} {row : SheetRow} {sheet : Sheet}
    (present : db.sheets.get? id = some row) (kept : sheet.merges = row.sheet.merges) :
    hostMerges (SharedStore.setSheet id (fun row => { row with sheet := sheet }) db) =
      hostMerges db := by
  rw [hostMerges_setSheet present]
  funext other
  change (if other = id then _ else _) = _
  split
  · rename_i same
    subst same
    ext merge
    change merge ∈ sheet.merges ↔ ∃ row, _
    rw [kept, present]
    constructor
    · exact fun listed => ⟨row, rfl, listed⟩
    · intro held
      rcases held with ⟨row', found, listed⟩
      obtain rfl := Option.some.inj found
      exact listed
  · rfl

/-- The deletions a merge reports are what it does to the cells. -/
theorem deleteCovered_patches (actorName : String) (now : Nat) (positions : List (Nat × Nat))
    (acc : Cells × List SheetCell) :
    ∃ reports, (positions.foldl (deleteCell actorName now) acc).2 = acc.2 ++ reports ∧
      (positions.foldl (deleteCell actorName now) acc).1 = patchCells acc.1 reports := by
  induction positions generalizing acc with
  | nil => exact ⟨[], (List.append_nil _).symm, rfl⟩
  | cons position rest ih =>
      rcases ih (deleteCell actorName now acc position) with ⟨reports, told, cells⟩
      rw [List.foldl_cons, told, cells]
      unfold deleteCell
      cases acc.1.get? position with
      | none => exact ⟨reports, rfl, rfl⟩
      | some cell =>
          refine ⟨mergedCell actorName now position cell :: reports, ?_, rfl⟩
          simp only [List.append_assoc, List.singleton_append]

/-- What a commit announces is what it does to the cells and ranges of the host. -/
structure Announced (db db' : SharedDb) (events : List SheetEventMsg) : Prop where
  cells : hostCells db' = overwriteAll (events.flatMap cellUpdates) (hostCells db)
  merges : hostMerges db' = overwriteAll (events.flatMap mergeUpdates) (hostMerges db)
  storable : ∀ event ∈ events, Storable event

theorem Announced.nothing (db : SharedDb) : Announced db db [] where
  cells := rfl
  merges := rfl
  storable := by
    intro event listed
    cases listed

theorem Announced.append {db mid db' : SharedDb} {one two : List SheetEventMsg}
    (first : Announced db mid one) (second : Announced mid db' two) :
    Announced db db' (one ++ two) where
  cells := by rw [second.cells, first.cells, List.flatMap_append, overwriteAll_append]
  merges := by rw [second.merges, first.merges, List.flatMap_append, overwriteAll_append]
  storable := by
    intro event listed
    rcases List.mem_append.mp listed with here | there
    · exact first.storable event here
    · exact second.storable event there

/-- The events of `broadcast_sheet_cells_changed`: none for no cells. -/
def cellEvents (id : String) (cells : List SheetCell) : List SheetEventMsg :=
  if cells = [] then [] else [.cellsChanged id cells]

theorem announceCells_events (id : String) (cells : List SheetCell) :
    (ServiceTask.announceCells id cells).filterMap Effect.sheetEvent? = cellEvents id cells := by
  unfold ServiceTask.announceCells cellEvents
  split
  · rfl
  · rfl

theorem cellEvents_updates (id : String) (cells : List SheetCell) :
    (cellEvents id cells).flatMap cellUpdates = cellUpdates (.cellsChanged id cells) ∧
      (cellEvents id cells).flatMap mergeUpdates = [] ∧
      ∀ event ∈ cellEvents id cells, Storable event := by
  unfold cellEvents
  split
  · rename_i none
    rw [none]
    refine ⟨rfl, rfl, ?_⟩
    intro event listed
    cases listed
  · refine ⟨List.flatMap_singleton .., rfl, ?_⟩
    intro event listed
    obtain rfl := List.mem_singleton.mp listed
    trivial

/-- A sheet whose cells are patched announces the patch. -/
theorem Announced.patch {db : SharedDb} {id : String} {row : SheetRow} {sheet : Sheet}
    {changed : List SheetCell} (present : db.sheets.get? id = some row)
    (patched : sheet.cells = patchCells row.sheet.cells changed)
    (kept : sheet.merges = row.sheet.merges) :
    Announced db (SharedStore.setSheet id (fun row => { row with sheet := sheet }) db)
      (cellEvents id changed) := by
  rcases cellEvents_updates id changed with ⟨cellwise, rangewise, storable⟩
  refine ⟨?_, ?_, storable⟩
  · rw [cellwise]
    exact hostCells_setSheet present patched
  · rw [rangewise]
    exact hostMerges_kept present kept

/-- A sheet with new ranges announces them too. -/
theorem Announced.remerge {db : SharedDb} {id : String} {row : SheetRow} {sheet : Sheet}
    (changed : List SheetCell) (present : db.sheets.get? id = some row)
    (patched : sheet.cells = patchCells row.sheet.cells changed)
    (anchored : Anchored sheet.merges) :
    Announced db (SharedStore.setSheet id (fun row => { row with sheet := sheet }) db)
      (.merges id sheet.merges :: cellEvents id changed) := by
  rcases cellEvents_updates id changed with ⟨cellwise, rangewise, storable⟩
  refine ⟨?_, ?_, ?_⟩
  · rw [List.flatMap_cons, cellwise]
    exact hostCells_setSheet present patched
  · rw [List.flatMap_cons, rangewise]
    exact hostMerges_setSheet present
  · intro event listed
    rcases List.mem_cons.mp listed with rfl | rest
    · exact anchored
    · exact storable event rest

theorem announceSheet_write (id : String) (cells : List CellWrite) {result : WriteResult}
    (counted : result.applied = 0 → result.changed = []) :
    (ServiceTask.announceSheet [] result.changed (.write id cells)
      (.writeResult result.applied result.conflicts)).filterMap Effect.sheetEvent? =
        cellEvents id result.changed := by
  unfold ServiceTask.announceSheet
  simp only
  split
  · rw [List.filterMap_append, announceCells_events]
    exact List.append_nil _
  · rename_i nothing
    rw [counted (by omega)]
    rfl

theorem announceSheet_merge {id : String} {merge : SheetMerge} {merges : List SheetMerge}
    {deleted : List SheetCell} :
    (ServiceTask.announceSheet merges deleted (.merge id merge) .done).filterMap
      Effect.sheetEvent? = .merges id merges :: cellEvents id deleted := by
  unfold ServiceTask.announceSheet
  simp only
  rw [List.filterMap_append, ← announceCells_events]
  exact List.append_nil _

/-- One commit announces what it does. -/
theorem call_announced {db : SharedDb} (reached : SharedStore.Reachable db) {call : SheetCall}
    (edits : call.op.Edits) : Announced db (call.perform db) (call.events db) := by
  have sound (id : String) (row : SheetRow) (found : (call.perform db).sheets.get? id = some row) :
      Anchored row.sheet.merges := by
    apply RangesSound.anchored
    refine reachable_ranges (?_ : SharedStore.Reachable (call.perform db)) found
    unfold SheetCall.perform
    rw [← SharedStore.perform_sheet]
    exact reached.requested call.env call.actor (.sheet call.op)
  unfold SheetCall.perform at sound ⊢
  unfold SheetCall.events
  cases outcome : SharedStore.performSheet call.env call.actor call.op db with
  | mk result after =>
      rw [outcome] at sound
      cases result with
      | error error =>
          rw [SharedStore.atomic_performSheet call.env call.actor call.op db error after outcome]
          exact Announced.nothing db
      | ok reply =>
          cases call with
          | mk env actor op =>
              cases edits with
              | write id cells =>
                  rcases ok_reply.mp outcome with ⟨result, written, rfl⟩
                  rcases SharedStore.sheetWrite_ok written with ⟨row, sheet, present, done, rfl⟩
                  rcases write_batch done with ⟨acc, inv, table, kept, applied, _, changed⟩
                  rcases inv.patches with ⟨reports, told, patched⟩
                  have told : result.changed = reports := changed.trans told
                  have events := announceSheet_write id cells (?_ : result.applied = 0 → result.changed = [])
                  · simp only [events]
                    exact Announced.patch present (by rw [table, patched, told]; rfl) kept
                  · intro none
                    apply List.eq_nil_of_length_eq_zero
                    have fewer := inv.changes
                    rw [changed]
                    simp only [Sheet.beginWrite, List.length_nil] at fewer
                    omega
              | merge id merge =>
                  rcases ok_reply.mp outcome with ⟨⟨merges, deleted⟩, merged, rfl⟩
                  rcases SharedStore.sheetMerge_ok merged with ⟨row, sheet, present, done, rfl⟩
                  rcases merge_inv done with ⟨_, _, cells, _, rfl, told⟩
                  rcases deleteCovered_patches actor.name env.now merge.covered
                    (row.sheet.cells, []) with ⟨reports, reported, patched⟩
                  have same : deleted = reports := told.trans reported
                  simp only [announceSheet_merge]
                  refine Announced.remerge deleted present ?_
                    (sound id { row with sheet := sheet } ?_)
                  · rw [cells, same]
                    exact patched
                  · exact (Table.get?_update_self ..).trans (congrArg _ present)
              | unmerge id row col =>
                  rcases ok_reply.mp outcome with ⟨merges, split, rfl⟩
                  rcases SharedStore.sheetUnmerge_ok split with
                    ⟨found, sheet, present, done, rfl, rfl⟩
                  refine Announced.remerge [] present ?_
                    (sound id { found with sheet := sheet } ?_)
                  · exact (unmerged_inv done).1
                  · exact (Table.get?_update_self ..).trans (congrArg _ present)

/-- All commits together. -/
theorem commitAll_announced {calls : List SheetCall} (edits : ∀ call ∈ calls, call.op.Edits)
    {db : SharedDb} (reached : SharedStore.Reachable db) :
    Announced db (commitAll calls db).1 (commitAll calls db).2 := by
  induction calls generalizing db with
  | nil => exact Announced.nothing db
  | cons call rest ih =>
      apply (call_announced reached (edits call List.mem_cons_self)).append
      apply ih (fun other listed => edits other (List.mem_cons_of_mem _ listed))
      unfold SheetCall.perform
      rw [← SharedStore.perform_sheet]
      exact reached.requested call.env call.actor (.sheet call.op)

/-! ### Convergence -/

/-- The event received last about each cell, and about the ranges, of a sheet says the same as the
event committed last. -/
structure EndsAlike (id : String) (received committed : List SheetEventMsg) : Prop where
  cells : ∀ position, last? (received.flatMap cellUpdates) (id, position) =
    last? (committed.flatMap cellUpdates) (id, position)
  merges : last? (received.flatMap mergeUpdates) id = last? (committed.flatMap mergeUpdates) id

/-- Whatever the requests, the order of their commits and the order in which their events arrive:
a copy of a sheet that agreed with the host agrees with it again exactly when the last events to
arrive say the same as the last ones committed. -/
theorem sheet_converges_iff {db : SharedDb} (reached : SharedStore.Reachable db)
    {calls : List SheetCall} (edits : ∀ call ∈ calls, call.op.Edits)
    {received : List SheetEventMsg} (delivered : received.Perm (commitAll calls db).2)
    {cache : SheetCache} {id : String} (before : Replica cache db id) :
    Replica (receiveAll received cache) (commitAll calls db).1 id ↔
      EndsAlike id received (commitAll calls db).2 := by
  have announced := commitAll_announced edits reached
  have storable : ∀ event ∈ received, Storable event := by
    intro event listed
    exact announced.storable event (delivered.mem_iff.mp listed)
  rcases receiveAll_overwrites storable cache with ⟨cells, merges⟩
  have cellsBefore (position : Nat × Nat) :
      cache.sheetCells.get? (id, position) = hostCells db (id, position) := by
    rw [← before.cells, cellsOf_get?]
  have mergesBefore : copyMerges cache id = hostMerges db id := Set.ext before.merges
  have cellwise (position : Nat × Nat) :
      ((receiveAll received cache).cellsOf id).get? position =
          hostCells (commitAll calls db).1 (id, position) ↔
        last? (received.flatMap cellUpdates) (id, position) =
          last? ((commitAll calls db).2.flatMap cellUpdates) (id, position) := by
    rw [cellsOf_get?, cells, announced.cells, overwriteAll_apply, cellsBefore,
      ← overwriteAll_apply]
    exact overwriteAll_eq_iff (delivered.flatMap_right _) _ _
  have rangewise : copyMerges (receiveAll received cache) id =
          hostMerges (commitAll calls db).1 id ↔
        last? (received.flatMap mergeUpdates) id =
          last? ((commitAll calls db).2.flatMap mergeUpdates) id := by
    rw [merges, announced.merges, overwriteAll_apply, mergesBefore, ← overwriteAll_apply]
    exact overwriteAll_eq_iff (delivered.flatMap_right _) _ _
  constructor
  · intro after
    refine ⟨?_, ?_⟩
    · exact fun position => (cellwise position).mp (after.cells position)
    · exact rangewise.mp (Set.ext after.merges)
  · intro alike
    refine ⟨?_, ?_⟩
    · exact fun position => (cellwise position).mpr (alike.cells position)
    · intro merge
      exact Set.ext_iff.mp (rangewise.mpr alike.merges) merge

/-! ### Two merges at once -/

/-- Merges of two cells of a row. -/
def mergeRow (row : Nat) : SheetCall :=
  sheetCall (.merge "s" { row := row, col := 0, rowSpan := 1, colSpan := 2 })

def twoMerges : List SheetCall := [mergeRow 0, mergeRow 2]

theorem twoMerges_edits : ∀ call ∈ twoMerges, call.op.Edits := by
  intro call listed
  rcases List.mem_cons.mp listed with rfl | listed
  · exact .merge ..
  · obtain rfl := List.mem_singleton.mp listed
    exact .merge ..

theorem oneSheet_reached : SharedStore.Reachable oneSheet :=
  .requested (.opened SharedDb.empty rfl) _ _ _

def emptyCache : SheetCache where
  sheetCells := Table.empty
  sheetMerges := Table.empty

theorem emptyCache_replica : Replica emptyCache oneSheet "s" where
  cells := fun _ => rfl
  merges := by
    intro merge
    constructor
    · intro listed
      cases mem_mergesOf.mp listed
    · intro held
      rcases held with ⟨row, found, listed⟩
      obtain rfl := Option.some.inj found
      cases listed

/-- The events of two merges arrive in the other order: the copy keeps the older list. -/
theorem sheet_diverges :
    ¬ ∀ db, SharedStore.Reachable db → ∀ calls : List SheetCall,
      (∀ call ∈ calls, call.op.Edits) → ∀ received, received.Perm (commitAll calls db).2 →
        ∀ cache id, Replica cache db id →
          Replica (receiveAll received cache) (commitAll calls db).1 id := by
  intro claim
  have after := claim oneSheet oneSheet_reached twoMerges twoMerges_edits
    (commitAll twoMerges oneSheet).2.reverse (List.reverse_perm _) emptyCache "s"
    emptyCache_replica
  have held : (⟨2, 0, 1, 2⟩ : SheetMerge) ∈
      hostMerges (commitAll twoMerges oneSheet).1 "s" := ⟨_, rfl, by decide⟩
  have stored := mem_mergesOf.mp ((after.merges _).mpr held)
  cases stored

/-- In the order of the commits the copy follows. -/
theorem sheet_converges_inOrder :
    Replica (receiveAll (commitAll twoMerges oneSheet).2 emptyCache)
      (commitAll twoMerges oneSheet).1 "s" :=
  (sheet_converges_iff oneSheet_reached twoMerges_edits (List.Perm.refl _)
    emptyCache_replica).mpr ⟨fun _ => rfl, rfl⟩

end PeerCove
