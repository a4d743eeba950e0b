/-
Module: PeerCove.Proofs.SheetRuns
Layer: Proofs
Purpose: What a request can do to the stored sheets, one case for each kind of change, and the rule
  by which a property of sheets holds in every state the store reaches.
Trusted boundary: none
Main exports: SharedStore.SheetChange, SharedStore.performSheet_change, SharedStore.Reachable,
  SharedStore.SheetChange.holds, SharedStore.Reachable.holds
-/
import PeerCove.Proofs.StoreChanges

namespace PeerCove.SharedStore

open Fallible Stateful

variable {env : StoreEnv} {actor : Actor} {id newId name : String} {db db' : SharedDb}

/-! ### What an operation on sheets leaves behind -/

theorem sheetCreate_ok {now : Nat} {sheet : SheetMeta}
    (created : sheetCreate now newId actor name db = (.ok sheet, db')) :
    db.sheets.get? newId = none ∧
      db' = { db with sheets := db.sheets.insert newId (newSheet now actor name) } := by
  rcases ok_bind_lift.mp created with ⟨⟨⟩, _, created⟩
  rcases ok_bind_query.mp created with ⟨count, _, created⟩
  rcases ok_bind_refuse.mp created with ⟨_, created⟩
  rcases ok_bind.mp created with ⟨⟨⟩, db₄, checked, created⟩
  rcases requireUnused_ok.mp checked with ⟨unused, rfl⟩
  rcases ok_bind.mp created with ⟨⟨⟩, db₅, written, created⟩
  obtain rfl := ok_execute.mp written
  rcases ok_bind.mp created with ⟨row, db₆, read, last⟩
  rcases sheetRow_ok.mp read with ⟨_, rfl⟩
  rcases ok_pure.mp last with ⟨_, rfl⟩
  exact ⟨by simpa using unused, rfl⟩

theorem sheetDelete_state {done : Unit} (deleted : sheetDelete actor id db = (.ok done, db')) :
    db' = { db with sheets := db.sheets.erase id } := by
  rcases ok_bind.mp deleted with ⟨row, db₁, read, deleted⟩
  rcases managedSheet_ok.mp read with ⟨_, _, rfl⟩
  exact (ok_execute.mp deleted).symm

/-- What is put in place of a sheet that was computed from it. -/
theorem setSheet_reply {α β : Type} (compute : Sheet → Except String α) (sheet : α → Sheet)
    (answer : α → β) {reply : β}
    (done : (do
      let row ← sheetRow id
      let computed ← lift (compute row.sheet)
      execute (setSheet id (fun row => { row with sheet := sheet computed }))
      return answer computed : StoreOp β) db = (.ok reply, db')) :
    ∃ row computed, db.sheets.get? id = some row ∧ compute row.sheet = .ok computed ∧
      db' = setSheet id (fun row => { row with sheet := sheet computed }) db ∧
      reply = answer computed := by
  rcases ok_bind.mp done with ⟨row, db₁, read, done⟩
  rcases sheetRow_ok.mp read with ⟨present, rfl⟩
  rcases ok_bind_lift.mp done with ⟨computed, succeeds, done⟩
  rcases ok_bind.mp done with ⟨⟨⟩, db₃, stored, done⟩
  obtain rfl := ok_execute.mp stored
  rcases ok_pure.mp done with ⟨rfl, rfl⟩
  exact ⟨row, computed, present, succeeds, rfl, rfl⟩

theorem sheetWrite_ok {now : Nat} {cells : List CellWrite} {result : WriteResult}
    (done : sheetWrite now actor id cells db = (.ok result, db')) :
    ∃ row sheet, db.sheets.get? id = some row ∧
      row.sheet.write actor.name now cells = .ok (sheet, result) ∧
      db' = setSheet id (fun row => { row with sheet := sheet }) db := by
  rcases setSheet_reply _ Prod.fst Prod.snd done with
    ⟨row, ⟨sheet, result⟩, present, written, after, rfl⟩
  exact ⟨row, sheet, present, written, after⟩

theorem sheetMerge_ok {now : Nat} {merge : SheetMerge} {reply : List SheetMerge × List SheetCell}
    (done : sheetMerge now actor id merge db = (.ok reply, db')) :
    ∃ row sheet, db.sheets.get? id = some row ∧
      row.sheet.merge actor.name now merge = .ok (sheet, reply) ∧
      db' = setSheet id (fun row => { row with sheet := sheet }) db := by
  rcases setSheet_reply _ Prod.fst Prod.snd done with
    ⟨row, ⟨sheet, reply⟩, present, merged, after, rfl⟩
  exact ⟨row, sheet, present, merged, after⟩

theorem sheetUnmerge_ok {row col : Nat} {merges : List SheetMerge}
    (done : sheetUnmerge id row col db = (.ok merges, db')) :
    ∃ found sheet, db.sheets.get? id = some found ∧ unmerged found.sheet row col = .ok sheet ∧
      db' = setSheet id (fun row => { row with sheet := sheet }) db ∧ merges = sheet.merges :=
  setSheet_reply (fun sheet => unmerged sheet row col) (fun sheet => sheet) Sheet.merges done

/-! ### One request -/

/-- What a request on sheets does to them. -/
inductive SheetChange (env : StoreEnv) (actor : Actor) (sheets : Table String SheetRow) :
    SheetOp → Table String SheetRow → Prop where
  | kept (op : SheetOp) : SheetChange env actor sheets op sheets
  | created (name : String) (unused : sheets.get? env.newId = none) :
      SheetChange env actor sheets (.create name)
        (sheets.insert env.newId (newSheet env.now actor name))
  | deleted (id : String) : SheetChange env actor sheets (.delete id) (sheets.erase id)
  | written (id : String) (cells : List CellWrite) (row : SheetRow) (sheet : Sheet)
      (result : WriteResult) (present : sheets.get? id = some row)
      (done : row.sheet.write actor.name env.now cells = .ok (sheet, result)) :
      SheetChange env actor sheets (.write id cells)
        (sheets.update id (fun row => { row with sheet := sheet }))
  | merged (id : String) (merge : SheetMerge) (row : SheetRow) (sheet : Sheet)
      (reply : List SheetMerge × List SheetCell) (present : sheets.get? id = some row)
      (done : row.sheet.merge actor.name env.now merge = .ok (sheet, reply)) :
      SheetChange env actor sheets (.merge id merge)
        (sheets.update id (fun row => { row with sheet := sheet }))
  | unmerged (id : String) (row col : Nat) (found : SheetRow) (sheet : Sheet)
      (present : sheets.get? id = some found)
      (done : unmerged found.sheet row col = .ok sheet) :
      SheetChange env actor sheets (.unmerge id row col)
        (sheets.update id (fun row => { row with sheet := sheet }))
  | dressed (op : SheetOp) (id : String) (change : SheetRow → SheetRow)
      (cells : ∀ row, (change row).sheet.cells = row.sheet.cells)
      (merges : ∀ row, (change row).sheet.merges = row.sheet.merges) :
      SheetChange env actor sheets op (sheets.update id change)

/-- Names, sizes and settings are apart from cells and merged ranges. -/
theorem SheetChange.of_setSheet {op : SheetOp} {change : SheetRow → SheetRow}
    (cells : ∀ row, (change row).sheet.cells = row.sheet.cells)
    (merges : ∀ row, (change row).sheet.merges = row.sheet.merges) :
    SheetChange env actor db.sheets op (setSheet id change db).sheets :=
  .dressed op id change cells merges

/-- A request on sheets that succeeds makes the change of its kind. -/
theorem performSheet_ok {op : SheetOp} {reply : SheetReply × List SheetMerge × List SheetCell}
    (done : performSheet env actor op db = (.ok reply, db')) :
    SheetChange env actor db.sheets op db'.sheets := by
  cases op with
  | list =>
      obtain rfl := ((readOnly_query _).bind (fun _ => readOnly_pure _)).same done
      exact .kept _
  | cells id =>
      obtain rfl := ((readOnly_sheetCells id).bind (fun _ => (readOnly_sheetLayout id).bind (fun _ =>
        (readOnly_sheetMerges id).bind (fun _ => readOnly_pure _)))).same done
      exact .kept _
  | create name =>
      obtain ⟨sheet, created, _⟩ := ok_reply.mp done
      rcases sheetCreate_ok created with ⟨unused, rfl⟩
      exact .created name unused
  | rename id name =>
      obtain ⟨sheet, renamed, _⟩ := ok_reply.mp done
      rcases ok_bind_lift.mp renamed with ⟨⟨⟩, _, renamed⟩
      rcases ok_bind.mp renamed with ⟨row, db₂, read, renamed⟩
      rcases managedSheet_ok.mp read with ⟨_, _, rfl⟩
      rcases ok_bind.mp renamed with ⟨⟨⟩, db₃, stored, read⟩
      obtain rfl := ok_execute.mp stored
      obtain rfl := (readOnly_sheetGet actor id).same read
      apply SheetChange.of_setSheet
      · exact fun _ => rfl
      · exact fun _ => rfl
  | delete id =>
      obtain ⟨_, deleted, _⟩ := ok_reply.mp done
      rw [sheetDelete_state deleted]
      exact .deleted id
  | write id cells =>
      obtain ⟨result, written, _⟩ := ok_reply.mp done
      rcases sheetWrite_ok written with ⟨row, sheet, present, succeeds, rfl⟩
      exact .written id cells row sheet result present succeeds
  | setColWidth id col width =>
      obtain ⟨_, resized, _⟩ := ok_reply.mp done
      rcases ok_bind.mp resized with ⟨row, db₁, read, resized⟩
      rcases sheetRow_ok.mp read with ⟨_, rfl⟩
      rcases ok_bind_refuse.mp resized with ⟨_, resized⟩
      cases width with
      | none =>
          obtain rfl := ok_execute.mp resized
          apply SheetChange.of_setSheet
          · exact fun _ => rfl
          · exact fun _ => rfl
      | some width =>
          rcases ok_bind_lift.mp resized with ⟨⟨⟩, _, resized⟩
          obtain rfl := ok_execute.mp resized
          apply SheetChange.of_setSheet
          · exact fun _ => rfl
          · exact fun _ => rfl
  | setRowHeight id row height =>
      obtain ⟨_, resized, _⟩ := ok_reply.mp done
      rcases ok_bind.mp resized with ⟨found, db₁, read, resized⟩
      rcases sheetRow_ok.mp read with ⟨_, rfl⟩
      rcases ok_bind_refuse.mp resized with ⟨_, resized⟩
      cases height with
      | none =>
          obtain rfl := ok_execute.mp resized
          apply SheetChange.of_setSheet
          · exact fun _ => rfl
          · exact fun _ => rfl
      | some height =>
          rcases ok_bind_lift.mp resized with ⟨⟨⟩, _, resized⟩
          obtain rfl := ok_execute.mp resized
          apply SheetChange.of_setSheet
          · exact fun _ => rfl
          · exact fun _ => rfl
  | merge id merge =>
      obtain ⟨merged, joined, _⟩ := ok_reply.mp done
      rcases sheetMerge_ok joined with ⟨row, sheet, present, succeeds, rfl⟩
      exact .merged id merge row sheet merged present succeeds
  | unmerge id row col =>
      obtain ⟨merges, split, _⟩ := ok_reply.mp done
      rcases sheetUnmerge_ok split with ⟨found, sheet, present, succeeds, rfl, _⟩
      exact .unmerged id row col found sheet present succeeds
  | setSheetSettings id gridlines rows cols =>
      obtain ⟨sheet, changed, _⟩ := ok_reply.mp done
      rcases ok_bind.mp changed with ⟨row, db₁, read, changed⟩
      rcases sheetRow_ok.mp read with ⟨_, rfl⟩
      rcases ok_bind_refuse.mp changed with ⟨_, changed⟩
      rcases ok_bind.mp changed with ⟨⟨⟩, db₃, stored, read⟩
      obtain rfl := ok_execute.mp stored
      obtain rfl := (readOnly_sheetGet actor id).same read
      apply SheetChange.of_setSheet
      · exact fun _ => rfl
      · exact fun _ => rfl
  | presence id row col =>
      obtain rfl := (readOnly_pure _).same done
      exact .kept _

/-- What a request on sheets does to them, whether it succeeds or not. -/
theorem performSheet_change (env : StoreEnv) (actor : Actor) (op : SheetOp) (db : SharedDb) :
    SheetChange env actor db.sheets op (performSheet env actor op db).2.sheets := by
  cases outcome : performSheet env actor op db with
  | mk result after =>
      cases result with
      | ok reply => exact performSheet_ok outcome
      | error error =>
          rw [atomic_performSheet env actor op db error after outcome]
          exact .kept op

/-- A property of every sheet is kept by a request, if it is kept by each kind of change. -/
theorem SheetChange.holds {P : Sheet → Prop} {sheets sheets' : Table String SheetRow} {op : SheetOp}
    (change : SheetChange env actor sheets op sheets')
    (all : ∀ id row, sheets.get? id = some row → P row.sheet)
    (fresh : ∀ now, P (Sheet.created now))
    (write : ∀ id cells row sheet result, op = .write id cells → sheets.get? id = some row →
      row.sheet.write actor.name env.now cells = .ok (sheet, result) → P row.sheet → P sheet)
    (merge : ∀ merge sheet sheet' reply,
      sheet.merge actor.name env.now merge = .ok (sheet', reply) → P sheet → P sheet')
    (unmerge : ∀ row col sheet sheet', SharedStore.unmerged sheet row col = .ok sheet' →
      P sheet → P sheet')
    (dress : ∀ one two : Sheet, two.cells = one.cells → two.merges = one.merges → P one → P two) :
    ∀ id row, sheets'.get? id = some row → P row.sheet := by
  intro id row found
  -- every change but a creation and a deletion touches one sheet
  have touch {target : String} {changed : SheetRow → SheetRow}
      (found : (sheets.update target changed).get? id = some row)
      (done : ∀ row, sheets.get? target = some row → P (changed row).sheet) : P row.sheet := by
    rw [Table.get?_update] at found
    split at found
    · rename_i same
      subst same
      rcases Option.map_eq_some_iff.mp found with ⟨before, present, rfl⟩
      exact done before present
    · exact all id row found
  cases change with
  | kept => exact all id row found
  | created name unused =>
      rw [Table.get?_insert] at found
      split at found
      · obtain rfl := Option.some.inj found
        exact fresh _
      · exact all id row found
  | deleted target =>
      rw [Table.get?_erase] at found
      split at found
      · cases found
      · exact all id row found
  | written target cells before sheet result present done =>
      apply touch found
      intro _ _
      exact write target cells before sheet result rfl present done (all target before present)
  | merged target range before sheet reply present done =>
      apply touch found
      intro _ _
      exact merge range before.sheet sheet reply done (all target before present)
  | unmerged target row col before sheet present done =>
      apply touch found
      intro _ _
      exact unmerge row col before.sheet sheet done (all target before present)
  | dressed _ target changed cells merges =>
      apply touch found
      intro before present
      exact dress before.sheet _ (cells before) (merges before) (all target before present)

/-! ### Runs of the store -/

/-- A request on sheets does to the store what its part on the database does. -/
theorem perform_sheet (env : StoreEnv) (actor : Actor) (op : SheetOp) (db : SharedDb) :
    (perform env actor (.sheet op) db).2 = (performSheet env actor op db).2 := by
  cases outcome : performSheet env actor op db with
  | mk result after =>
      cases result with
      | ok reply => exact congrArg Prod.snd (run_bind outcome)
      | error error => exact congrArg Prod.snd (error_bind.mpr (.inl outcome))

/-- A request on memos that succeeds leaves the sheets alone. -/
theorem perform_ok_sheets {op : SharedMemoOp} {reply : SharedMemoReply}
    (done : perform env actor op db = (.ok reply, db')) (others : ∀ sheet, op ≠ .sheet sheet) :
    db'.sheets = db.sheets := by
  by_cases reads : readsOnly op = true
  · rw [(readOnly_perform env actor reads).same done]
  cases op with
  | create title body folderId =>
      obtain ⟨detail, created, _⟩ := ok_reply.mp done
      rw [(create_ok created).2.1]
      rfl
  | update id base title body =>
      obtain ⟨detail, updated, _⟩ := ok_reply.mp done
      rcases update_ok updated with ⟨row, _, _, _, _, rfl⟩
      unfold withAutoSnapshot
      split
      · rfl
      · rfl
  | historyRestore id hid =>
      obtain ⟨detail, restored, _⟩ := ok_reply.mp done
      rcases historyRestore_ok restored with ⟨row, version, _, _, _, _, rfl⟩
      rfl
  | trash id =>
      obtain ⟨_, trashed, _⟩ := ok_reply.mp done
      rcases trash_ok trashed with ⟨row, _, _, rfl⟩
      rfl
  | restore id =>
      obtain ⟨_, restored, _⟩ := ok_reply.mp done
      rcases restore_ok restored with ⟨row, _, _, rfl⟩
      rfl
  | deleteForever id =>
      obtain ⟨_, deleted, _⟩ := ok_reply.mp done
      rcases deleteForever_ok deleted with ⟨row, _, _, _, rfl⟩
      rfl
  | setPerms id everyone members groups =>
      obtain ⟨detail, changed, _⟩ := ok_reply.mp done
      rcases setPerms_ok changed with ⟨row, _, _, rfl, _⟩
      cases groups with
      | none => rfl
      | some groups => rfl
  | folderDelete id =>
      obtain ⟨_, deleted, _⟩ := ok_reply.mp done
      rw [(folderDelete_ok deleted).2]
  | commentAdd id body =>
      obtain ⟨comment, added, _⟩ := ok_reply.mp done
      rcases commentAdd_ok added with ⟨row, _, _, _, rfl⟩
      rfl
  | commentDelete id commentId =>
      obtain ⟨_, deleted, _⟩ := ok_reply.mp done
      rcases commentDelete_ok deleted with ⟨row, comment, _, _, _, _, _, rfl⟩
      rfl
  | folderCreate name =>
      obtain ⟨folder, created, _⟩ := ok_reply.mp done
      rw [(folderCreate_ok created).2.2.2]
  | folderRename id name =>
      obtain ⟨_, renamed, _⟩ := ok_reply.mp done
      rcases folderRename_ok renamed with ⟨_, valid, _, rfl⟩
      rfl
  | saveVersion id =>
      obtain ⟨_, saved, _⟩ := ok_reply.mp done
      rcases saveVersion_ok saved with ⟨row, _, _, rfl | rfl⟩
      · rfl
      · rfl
  | setLimits limits =>
      obtain ⟨_, changed, _⟩ := ok_reply.mp done
      rw [(setLimits_ok changed).2.2]
  | schedule op =>
      have same := keeps_reply (f := SharedDb.sheets)
        (performSchedule_keeps (fun _ _ => rfl) env actor op) SharedMemoReply.schedule db
      have state : ((performSchedule env actor op >>= fun reply =>
        pure (SharedMemoReply.schedule reply)) db).2 = db' := congrArg Prod.snd done
      rw [state] at same
      exact same
  | sheet op => exact absurd rfl (others op)
  | _ => exact absurd rfl reads

/-- The requests on memos leave the sheets alone. -/
theorem perform_sheets (env : StoreEnv) (actor : Actor) (op : SharedMemoOp) (db : SharedDb)
    (others : ∀ sheet, op ≠ .sheet sheet) : (perform env actor op db).2.sheets = db.sheets := by
  cases outcome : perform env actor op db with
  | mk result after =>
      cases result with
      | error error => rw [atomic_perform env actor op db error after outcome]
      | ok reply => exact perform_ok_sheets outcome others

/-- The states a store reaches: it is opened without sheets, answers requests, and is cleaned up. -/
inductive Reachable : SharedDb → Prop where
  | opened (db : SharedDb) (none : db.sheets = Table.empty) : Reachable db
  | requested {db : SharedDb} (before : Reachable db) (env : StoreEnv) (actor : Actor)
      (op : SharedMemoOp) : Reachable (perform env actor op db).2
  | closed {db : SharedDb} (before : Reachable db) (now : Nat) (id : String) (since : Nat) :
      Reachable (snapshotIfRevisionChanged now id since db).2
  | purged {db : SharedDb} (before : Reachable db) (now : Nat) :
      Reachable (purgeExpired now db).2

theorem keeps_snapshot (now : Nat) (id kind : String) :
    Keeps SharedDb.sheets (snapshotHistory now id kind) :=
  ((readOnly_row id).keeps _).bind (fun _ => keeps_execute (fun _ => rfl))

theorem keeps_closing (now : Nat) (id : String) (since : Nat) :
    Keeps SharedDb.sheets (snapshotIfRevisionChanged now id since) := by
  apply ((readOnly_row id).keeps _).bind
  intro row
  split
  · exact keeps_snapshot now id "close"
  · exact (readOnly_pure _).keeps _

theorem purgeMemos_sheets (now : Nat) (ids : List String) (db : SharedDb) :
    (ids.foldl (fun db id => db.purgeMemo id now) db).sheets = db.sheets := by
  induction ids generalizing db with
  | nil => rfl
  | cons id ids ih => exact ih (db.purgeMemo id now)

theorem keeps_purging (now : Nat) : Keeps SharedDb.sheets (purgeExpired now) := by
  apply ((readOnly_query _).keeps _).bind
  intro ids
  apply Keeps.bind
  · exact keeps_execute (fun db => purgeMemos_sheets now ids db)
  · intro _
    apply Keeps.bind
    · exact keeps_execute (fun _ => rfl)
    · exact fun _ => (readOnly_pure _).keeps _

/-- A property of sheets that a new sheet has and every operation keeps holds of every sheet the
store ever has. -/
theorem Reachable.holds {P : Sheet → Prop} (run : Reachable db)
    (fresh : ∀ now, P (Sheet.created now))
    (write : ∀ actorName now cells sheet sheet' result,
      sheet.write actorName now cells = .ok (sheet', result) → P sheet → P sheet')
    (merge : ∀ actorName now merge sheet sheet' reply,
      sheet.merge actorName now merge = .ok (sheet', reply) → P sheet → P sheet')
    (unmerge : ∀ row col sheet sheet', SharedStore.unmerged sheet row col = .ok sheet' →
      P sheet → P sheet')
    (dress : ∀ one two : Sheet, two.cells = one.cells → two.merges = one.merges → P one → P two) :
    ∀ id row, db.sheets.get? id = some row → P row.sheet := by
  induction run with
  | opened db none =>
      intro id row found
      rw [none] at found
      cases found
  | @requested db before env actor op ih =>
      by_cases others : ∀ sheet, op ≠ .sheet sheet
      · rw [perform_sheets env actor op db others]
        exact ih
      · rcases not_forall_not.mp others with ⟨op, rfl⟩
        rw [perform_sheet]
        apply (performSheet_change env actor op db).holds ih fresh
        · intro id cells row sheet result _ _
          exact write actor.name env.now cells row.sheet sheet result
        · exact fun range sheet sheet' reply => merge actor.name env.now range sheet sheet' reply
        · exact unmerge
        · exact dress
  | closed before now id since ih =>
      rw [keeps_closing now id since]
      exact ih
  | purged before now ih =>
      rw [keeps_purging now]
      exact ih

end PeerCove.SharedStore
