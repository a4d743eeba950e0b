/-
Module: PeerCove.Proofs.RestoreConfinement
Layer: Proofs
Purpose: When `restore` keeps to its own directories, leaves the target as it was after an error,
  and leaves no stage behind.
Trusted boundary: none
Main exports: FileAccess.confined, Staging, RestoreCarefully, restore_confined, restore_escapes
-/
import PeerCove.Library.Base64Url
import PeerCove.Ops.BackupRestore
import PeerCove.Proofs.DnsLabels

namespace PeerCove

open FileTree Stateful

/-! ### The directories of a restore -/

namespace RestorePlace

variable {location : RestorePlace} {slug : String} {path other : Path}

/-- A path in the stage, the target, or the directory the target is moved to. -/
def owns (location : RestorePlace) (slug : String) (path : Path) : Prop :=
  location.stage <+: path ∨ location.target slug <+: path ∨ location.old <+: path

/-- Entries of one directory are not above each other. -/
theorem apart_of_ne {directory : Path} {one two : String} (differ : one ≠ two) :
    ¬ directory ++ [one] <+: directory ++ [two] := by
  intro above
  obtain ⟨rest, same⟩ := above
  have names : one :: rest = [two] := by
    rw [List.append_assoc] at same
    exact List.append_cancel_left same
  exact differ (List.cons.inj names).1

theorem apart_below {directory : Path} {one two : String} (differ : one ≠ two)
    (below : directory ++ [one] <+: path) : ¬ directory ++ [two] <+: path := by
  intro also
  rcases List.prefix_or_prefix_of_prefix below also with above | above
  · exact apart_of_ne differ above
  · exact apart_of_ne differ.symm above

theorem stageName_ne_oldName :
    s!".restore-{location.pid}-{location.stagedMs}" ≠
      s!".replace-old-{location.pid}-{location.retiredMs}" := by
  intro same
  have fourth := congrArg (fun text => text.toList.take 4) same
  simp [toString, String.toList_append] at fourth

theorem label_noDot {label : String} (shape : Names.isDnsLabel label = true) :
    label.toList.head? ≠ some '.' := by
  intro first
  have mapped := (Names.isDnsLabel_iff.mp shape).mapped '.' (List.mem_of_mem_head? first)
  revert mapped
  decide

theorem stage_ne_slug (label : Names.isDnsLabel slug = true) :
    s!".restore-{location.pid}-{location.stagedMs}" ≠ slug := by
  rintro rfl
  exact label_noDot label (by simp [toString, String.toList_append])

theorem old_ne_slug (label : Names.isDnsLabel slug = true) :
    s!".replace-old-{location.pid}-{location.retiredMs}" ≠ slug := by
  rintro rfl
  exact label_noDot label (by simp [toString, String.toList_append])

theorem above_networks {name : String} (above : path <+: location.networks ++ [name])
    (differ : path ≠ location.networks ++ [name]) : path <+: location.networks := by
  rcases List.prefix_concat_iff.mp above with same | shorter
  · exact absurd same differ
  · exact shorter

theorem not_above_networks {name : String} (below : location.networks ++ [name] <+: path) :
    ¬ path <+: location.networks := by
  intro above
  have length := (below.trans above).length_le
  simp at length

end RestorePlace

/-- An operation on the own files of a restore; the directory of the networks may be created. -/
def FileAccess.confined (location : RestorePlace) (slug : String) : FileAccess → Prop
  | .read path | .write path | .remove path => location.owns slug path
  | .createDirs path => path <+: location.networks ∨ location.stage <+: path
  | .rename source dest => location.owns slug source ∧ location.owns slug dest

/-! ### One operation -/

section

variable {fault : Option FileFault} {call : RestoreCall} {access : FileAccess}
  {effect : DirTree (List UInt8) → Option (DirTree (List UInt8))}
  {damage : FileFault → DirTree (List UInt8) → DirTree (List UInt8)} {world after : RestoreWorld}

/-- The operation is the one that fails. -/
def FileFault.strikes (fault : Option FileFault) (call : RestoreCall) : Bool :=
  fault.any (fun failing => failing.call = call)

theorem strikes_iff :
    FileFault.strikes fault call = true ↔
      ∃ failing, fault = some failing ∧ failing.call = call := by
  cases fault with
  | none => simp [FileFault.strikes]
  | some failing => simp [FileFault.strikes]

/-- Only one operation fails. -/
theorem strikes_once {other : RestoreCall} (struck : FileFault.strikes fault call = true)
    (differ : call ≠ other) : FileFault.strikes fault other = false := by
  obtain ⟨failing, rfl, rfl⟩ := strikes_iff.mp struck
  simpa [FileFault.strikes] using differ

variable (access effect damage world) in
theorem attempt_struck (struck : FileFault.strikes fault call = true) :
    ∃ failing, attempt fault call access effect damage world = (.error .io,
        { tree := damage failing world.tree, accessed := world.accessed ++ [access] }) := by
  obtain ⟨failing, rfl, same⟩ := strikes_iff.mp struck
  have found : (some failing).filter (fun failing => failing.call = call) = some failing := by
    simp [Option.filter, same]
  refine ⟨failing, ?_⟩
  rw [attempt]
  simp only [found]

theorem filter_unstruck (spared : FileFault.strikes fault call = false) :
    fault.filter (fun failing => failing.call = call) = none := by
  cases fault with
  | none => rfl
  | some failing => simpa [FileFault.strikes, Option.filter] using spared

theorem attempt_done {tree : DirTree (List UInt8)} (spared : FileFault.strikes fault call = false)
    (does : effect world.tree = some tree) :
    attempt fault call access effect damage world =
      (.ok (), { tree := tree, accessed := world.accessed ++ [access] }) := by
  rw [attempt]
  simp only [filter_unstruck spared, does]

theorem attempt_refused (spared : FileFault.strikes fault call = false)
    (refuses : effect world.tree = none) :
    attempt fault call access effect damage world =
      (.error .io, { world with accessed := world.accessed ++ [access] }) := by
  rw [attempt]
  simp only [filter_unstruck spared, refuses]

/-- What an operation does when it succeeds. -/
theorem attempt_ok (done : attempt fault call access effect damage world = (.ok (), after)) :
    ∃ tree, effect world.tree = some tree ∧
      after = { tree := tree, accessed := world.accessed ++ [access] } := by
  cases struck : FileFault.strikes fault call with
  | true =>
      obtain ⟨_, failed⟩ := attempt_struck access effect damage world struck
      rw [failed] at done
      cases done
  | false =>
      cases does : effect world.tree with
      | none =>
          rw [attempt_refused struck does] at done
          cases done
      | some tree =>
          rw [attempt_done struck does] at done
          cases done
          exact ⟨tree, rfl, rfl⟩

/-- What an operation does when it fails. -/
theorem attempt_error {error : BackupError}
    (failed : attempt fault call access effect damage world = (.error error, after)) :
    error = .io ∧ (after = { world with accessed := world.accessed ++ [access] } ∨
      FileFault.strikes fault call = true ∧ ∃ failing, after =
        { tree := damage failing world.tree, accessed := world.accessed ++ [access] }) := by
  cases struck : FileFault.strikes fault call with
  | true =>
      obtain ⟨failing, same⟩ := attempt_struck access effect damage world struck
      rw [same] at failed
      cases failed
      exact ⟨rfl, .inr ⟨rfl, failing, rfl⟩⟩
  | false =>
      cases does : effect world.tree with
      | none =>
          rw [attempt_refused struck does] at failed
          cases failed
          exact ⟨rfl, .inl rfl⟩
      | some tree =>
          rw [attempt_done struck does] at failed
          cases failed

end

/-! ### The stage is filled -/

/-- What filling the stage may do to the files: directories stay, and outside the stage only those
that lead to the networks may be new. -/
structure StagingTree (location : RestorePlace) (before after : DirTree (List UInt8)) : Prop where
  outside : ∀ path, ¬ location.stage <+: path → ¬ path <+: location.networks →
    after.node path = before.node path
  directories : ∀ path, before.node path = some .directory → after.node path = some .directory

/-- The same of the state, with the files that are accessed. -/
structure Staging (location : RestorePlace) (slug : String) (before after : RestoreWorld) :
    Prop where
  confined : (∀ access ∈ before.accessed, access.confined location slug) →
    ∀ access ∈ after.accessed, access.confined location slug
  files : StagingTree location before.tree after.tree

section

variable {location : RestorePlace} {slug : String} {fault : Option FileFault} {call : RestoreCall}
  {tree after : DirTree (List UInt8)} {path : Path} {content : List UInt8}

theorem StagingTree.refl (tree : DirTree (List UInt8)) : StagingTree location tree tree :=
  ⟨fun _ _ _ => rfl, fun _ same => same⟩

theorem Staging.refl (world : RestoreWorld) : Staging location slug world world :=
  ⟨fun all => all, .refl _⟩

theorem Staging.trans (one two three : RestoreWorld) (first : Staging location slug one two)
    (second : Staging location slug two three) : Staging location slug one three where
  confined := fun all => second.confined (first.confined all)
  files :=
    { outside := fun path apart noDirectory =>
        (second.files.outside path apart noDirectory).trans
          (first.files.outside path apart noDirectory)
      directories := fun path same =>
        second.files.directories path (first.files.directories path same) }

/-- A path of directories that may be created. -/
theorem stagingTree_createDirs (fits : (FileAccess.createDirs path).confined location slug)
    (created : tree.createDirs path = some after) : StagingTree location tree after where
  outside := by
    intro other apart noDirectory
    refine DirTree.createDirs_apart created (fun above => ?_)
    rcases fits with leading | below
    · exact noDirectory (above.trans leading)
    · rcases List.prefix_or_prefix_of_prefix above below with higher | lower
      · by_cases same : other = location.stage
        · exact apart (same ▸ List.prefix_rfl)
        · exact noDirectory (RestorePlace.above_networks higher same)
      · exact apart lower
  directories := fun _ same => DirTree.directory_createDirs created same

theorem stagingTree_write (below : location.stage <+: path)
    (written : tree.write path content = some after) : StagingTree location tree after where
  outside := by
    intro other apart _
    refine DirTree.write_apart written (fun same => ?_)
    exact apart (same ▸ below)
  directories := fun _ same => DirTree.directory_write written same

/-- An operation whose effect and whose damage are fine. -/
theorem moves_attempt {access : FileAccess}
    {effect : DirTree (List UInt8) → Option (DirTree (List UInt8))}
    {damage : FileFault → DirTree (List UInt8) → DirTree (List UInt8)}
    (fits : access.confined location slug)
    (done : ∀ tree after, effect tree = some after → StagingTree location tree after)
    (damaged : ∀ failing tree, StagingTree location tree (damage failing tree)) :
    Moves (Staging location slug) (attempt fault call access effect damage) := by
  intro world
  have accesses : (∀ access ∈ world.accessed, access.confined location slug) →
      ∀ other ∈ world.accessed ++ [access], other.confined location slug := by
    intro all other listed
    rcases List.mem_append.mp listed with before | now
    · exact all other before
    · rw [List.mem_singleton.mp now]
      exact fits
  generalize outcome : attempt fault call access effect damage world = result
  obtain ⟨result, after⟩ := result
  cases result with
  | ok _ =>
      obtain ⟨tree, does, rfl⟩ := attempt_ok outcome
      exact ⟨accesses, done _ _ does⟩
  | error error =>
      rcases (attempt_error outcome).2 with rfl | ⟨_, failing, rfl⟩
      · exact ⟨accesses, .refl _⟩
      · exact ⟨accesses, damaged failing _⟩

theorem moves_createDirectories (fits : (FileAccess.createDirs path).confined location slug) :
    Moves (Staging location slug) (createDirectories fault call path) :=
  moves_attempt fits (fun _ _ created => stagingTree_createDirs fits created)
    (fun _ tree => .refl tree)

theorem moves_writeContent {opens : Bool} (below : location.stage <+: path) :
    Moves (Staging location slug) (writeContent fault call opens path content) := by
  refine moves_attempt (.inl below) (fun tree after done => ?_) (fun failing tree => ?_)
  · split at done
    · exact stagingTree_write below done
    · cases done
  · split
    · cases torn : failing.torn.bind (fun torn => tree.write path torn) with
      | none => exact .refl tree
      | some after =>
          obtain ⟨content, _, written⟩ := Option.bind_eq_some_iff.mp torn
          exact stagingTree_write below written
    · exact .refl tree

/-- A path below the stage: it is read there, and its parent may be created. -/
theorem moves_readContent {text : String}
    (below : location.stage <+: UnixPath.locate location.stage text) :
    Moves (Staging location slug) (readContent fault call location.stage text) := by
  intro world
  have read : Staging location slug world { world with accessed :=
      world.accessed ++ [.read (UnixPath.locate location.stage text)] } := by
    refine ⟨fun all other listed => ?_, .refl _⟩
    rcases List.mem_append.mp listed with before | now
    · exact all other before
    · rw [List.mem_singleton.mp now]
      exact .inl below
  unfold readContent
  dsimp only
  split
  · exact read
  · split
    · split
      · exact read
      · exact read
    · exact read

theorem confined_parent (below : location.stage <+: path) :
    (FileAccess.createDirs path.dropLast).confined location slug := by
  obtain ⟨rest, rfl⟩ := below
  cases rest using List.reverseRecOn with
  | nil =>
      left
      rw [List.append_nil, RestorePlace.stage, List.dropLast_concat]
  | append_singleton rest name =>
      right
      rw [← List.append_assoc, List.dropLast_concat]
      exact List.prefix_append _ _

/-- The names of a payload lead below the stage. -/
theorem locate_valid {allowed text : String} (valid : ¬ validBackupName allowed text = false)
    (stage : Path) : stage <+: UnixPath.locate stage text := by
  rw [Bool.not_eq_false, validBackupName, Bool.and_eq_true, Bool.and_eq_true] at valid
  have plain : UnixPath.hasDots text = false := by simpa using valid.1.2
  have relative : UnixPath.isAbsolute text = false := by simpa using valid.2
  obtain ⟨names, same⟩ := UnixPath.names_of_plain (UnixPath.components_plain plain)
  rw [UnixPath.locate, relative, same, if_neg Bool.false_ne_true, normalize_names]
  exact List.prefix_append _ _

variable {δ κ : Type} {tools : BackupTools δ κ}

theorem moves_stageFiles (allowed : String) (files : List BackupFile) (place : Nat) :
    Moves (Staging location slug) (stageFiles tools fault allowed location.stage place files) := by
  induction files generalizing place with
  | nil => exact fun world => .refl world
  | cons file rest ih =>
      rw [stageFiles]
      refine Moves.after_refuse Staging.refl (fun valid => ?_)
      refine Moves.after_readOnly Staging.refl (readOnly_expect _ _) (fun bytes => ?_)
      have below := locate_valid valid location.stage
      refine Moves.bind Staging.trans (moves_createDirectories (confined_parent below))
        (fun _ => ?_)
      exact Moves.bind Staging.trans (moves_writeContent below) (fun _ => ih (place + 1))

theorem moves_rewriteConfig {allowed : String}
    (below : location.stage <+: UnixPath.locate location.stage allowed) :
    Moves (Staging location slug) (rewriteConfig tools fault allowed location.stage slug) := by
  unfold rewriteConfig
  refine Moves.bind Staging.trans (moves_readContent below) (fun text => ?_)
  refine Moves.after_readOnly Staging.refl (readOnly_expect _ _) (fun document => ?_)
  refine Moves.after_readOnly Staging.refl (readOnly_expect _ _) (fun named => ?_)
  refine Moves.bind Staging.trans (moves_createDirectories (confined_parent below)) (fun _ => ?_)
  refine Moves.bind Staging.trans (moves_writeContent below) (fun _ => ?_)
  refine Moves.bind Staging.trans (moves_readContent below) (fun written => ?_)
  exact (readOnly_refuse _ _).moves Staging.refl

theorem moves_restoreToStage {payload : BackupPayload}
    (below : location.stage <+: UnixPath.locate location.stage payload.preview.configFile) :
    Moves (Staging location slug) (restoreToStage tools fault payload location.stage slug) :=
  Moves.bind Staging.trans (moves_stageFiles _ _ _) (fun _ => moves_rewriteConfig below)

end

/-! ### A panic comes from the payload -/

section

variable {location : RestorePlace} {slug : String} {fault : Option FileFault} {δ κ : Type}
  {tools : BackupTools δ κ} {world after : RestoreWorld}

/-- A file of the payload that leads to a path, with its content. -/
def FromPayload (tools : BackupTools δ κ) (location : RestorePlace) (files : List BackupFile)
    (path : Path) (content : List UInt8) : Prop :=
  ∃ file ∈ files, UnixPath.locate location.stage file.path = path ∧
    tools.decode file.contentBase64 = some content

/-- The stage holds files of the payload only. -/
def HeldStage (tools : BackupTools δ κ) (location : RestorePlace) (files : List BackupFile)
    (world : RestoreWorld) : Prop :=
  ∀ path content, location.stage <+: path → world.tree.node path = some (.file content) →
    FromPayload tools location files path content

theorem held_createDirectories {files : List BackupFile} {call : RestoreCall} {path : Path}
    (held : HeldStage tools location files world)
    (done : createDirectories fault call path world = (.ok (), after)) :
    HeldStage tools location files after := by
  obtain ⟨tree, created, rfl⟩ := attempt_ok done
  intro other content below there
  dsimp only at there
  rw [DirTree.createDirs_some created] at there
  dsimp only at there
  split at there
  · cases there
  · exact held other content below there

theorem held_writeContent {files : List BackupFile} {call : RestoreCall} {opens : Bool}
    {path : Path} {content : List UInt8} (held : HeldStage tools location files world)
    (known : FromPayload tools location files path content)
    (done : writeContent fault call opens path content world = (.ok (), after)) :
    HeldStage tools location files after := by
  obtain ⟨tree, does, rfl⟩ := attempt_ok done
  split at does
  · intro other found below there
    by_cases same : other = path
    · subst same
      cases (DirTree.node_written does).symm.trans there
      exact known
    · exact held other found below ((DirTree.write_apart does same).symm.trans there)
  · cases does

theorem held_stageFiles {allowed : String} {files rest : List BackupFile} {place : Nat}
    (held : HeldStage tools location files world) (known : ∀ file ∈ rest, file ∈ files)
    (done : stageFiles tools fault allowed location.stage place rest world = (.ok (), after)) :
    HeldStage tools location files after := by
  induction rest generalizing place world with
  | nil =>
      cases done
      exact held
  | cons file rest ih =>
      rw [stageFiles] at done
      obtain ⟨_, done⟩ := ok_bind_refuse.mp done
      obtain ⟨bytes, second, expected, done⟩ := ok_bind.mp done
      obtain ⟨decoded, rfl⟩ := ok_expect.mp expected
      obtain ⟨⟨⟩, third, created, done⟩ := ok_bind.mp done
      obtain ⟨⟨⟩, fourth, written, done⟩ := ok_bind.mp done
      have mine : FromPayload tools location files
          (UnixPath.locate location.stage file.path) bytes :=
        ⟨file, known file List.mem_cons_self, rfl, decoded⟩
      exact ih (held_writeContent (held_createDirectories held created) mine written)
        (fun other listed => known other (List.mem_cons_of_mem _ listed)) done

theorem readContent_ok {call : RestoreCall} {stage : Path} {text : String} {bytes : List UInt8}
    (done : readContent fault call stage text world = (.ok bytes, after)) :
    world.tree.node (UnixPath.locate stage text) = some (.file bytes) ∧
      after.tree = world.tree := by
  unfold readContent at done
  dsimp only at done
  split at done
  · cases done
  · split at done
    · rename_i found
      split at done
      · cases done
        obtain ⟨path, walked, content⟩ := Option.bind_eq_some_iff.mp found
        rw [UnixPath.locate, ← walk_some walked]
        exact ⟨DirTree.contents_eq_some.mp content, rfl⟩
      · cases done
    · cases done

theorem readContent_error {call : RestoreCall} {stage : Path} {text : String} {error : BackupError}
    (failed : readContent fault call stage text world = (.error error, after)) : error = .io := by
  unfold readContent at failed
  dsimp only at failed
  split at failed
  · cases failed
    rfl
  · split at failed
    · split at failed
      · cases failed
      · cases failed
        rfl
    · cases failed
      rfl

theorem expect_error {α : Type} {value : Option α} {one two : BackupError}
    (failed : (expect value one : Restoring α) world = (.error two, after)) :
    value = none ∧ one = two ∧ after = world := by
  cases value with
  | none =>
      cases failed
      exact ⟨rfl, rfl, rfl⟩
  | some value => cases failed

theorem refuse_error {bad : Prop} [Decidable bad] {one two : BackupError}
    (failed : (refuse bad one : Restoring Unit) world = (.error two, after)) :
    bad ∧ one = two ∧ after = world := by
  unfold refuse at failed
  split at failed
  · rename_i refused
    cases failed
    exact ⟨refused, rfl, rfl⟩
  · cases failed

/-- The rewriting panics when the configuration in the stage is a document without a table of the
interface. -/
theorem rewriteConfig_panicked {allowed : String} {stage : Path}
    (failed : rewriteConfig tools fault allowed stage slug world = (.error .panicked, after)) :
    ∃ text document, world.tree.node (UnixPath.locate stage allowed) = some (.file text) ∧
      tools.toml.parse text = some document ∧ tools.toml.setNetworkName slug document = none := by
  unfold rewriteConfig at failed
  rcases error_bind.mp failed with unread | ⟨text, first, read, failed⟩
  · cases readContent_error unread
  rcases error_bind.mp failed with unparsed | ⟨document, second, parsed, failed⟩
  · cases (expect_error unparsed).2.1
  rcases error_bind.mp failed with noTable | ⟨named, third, _, failed⟩
  · exact ⟨text, document, (readContent_ok read).1, (ok_expect.mp parsed).1,
      (expect_error noTable).1⟩
  rcases error_bind.mp failed with uncreated | ⟨_, fourth, _, failed⟩
  · cases (attempt_error uncreated).1
  rcases error_bind.mp failed with unwritten | ⟨_, fifth, _, failed⟩
  · cases (attempt_error unwritten).1
  rcases error_bind.mp failed with unread | ⟨_, sixth, _, failed⟩
  · cases readContent_error unread
  cases (refuse_error failed).2.1

theorem stageFiles_panicked {allowed : String} {stage : Path} {files : List BackupFile}
    {place : Nat} :
    stageFiles tools fault allowed stage place files world ≠ (.error .panicked, after) := by
  induction files generalizing place world with
  | nil =>
      intro failed
      cases failed
  | cons file rest ih =>
      intro failed
      rw [stageFiles] at failed
      rcases error_bind.mp failed with invalid | ⟨_, first, _, failed⟩
      · cases (refuse_error invalid).2.1
      rcases error_bind.mp failed with broken | ⟨_, second, _, failed⟩
      · cases (expect_error broken).2.1
      rcases error_bind.mp failed with uncreated | ⟨_, third, _, failed⟩
      · cases (attempt_error uncreated).1
      rcases error_bind.mp failed with unwritten | ⟨_, fourth, _, failed⟩
      · cases (attempt_error unwritten).1
      exact ih failed

/-- The document that the payload has as configuration has a table of the interface, if it has one
at all. -/
def ConfigHasTable (tools : BackupTools δ κ) (location : RestorePlace) (payload : BackupPayload)
    (slug : String) : Prop :=
  ∀ file ∈ payload.files, UnixPath.locate location.stage file.path =
      UnixPath.locate location.stage payload.preview.configFile →
    ∀ text document, tools.decode file.contentBase64 = some text →
      tools.toml.parse text = some document →
        (tools.toml.setNetworkName slug document).isSome = true

theorem restoreToStage_steady {payload : BackupPayload}
    (below : location.stage <+: UnixPath.locate location.stage payload.preview.configFile)
    (table : ConfigHasTable tools location payload slug)
    (held : HeldStage tools location payload.files world) :
    restoreToStage tools fault payload location.stage slug world ≠ (.error .panicked, after) := by
  intro failed
  rcases error_bind.mp failed with early | ⟨⟨⟩, middle, staged, failed⟩
  · exact stageFiles_panicked early
  obtain ⟨text, document, there, parsed, noTable⟩ := rewriteConfig_panicked failed
  have held := held_stageFiles held (fun _ listed => listed) staged
  obtain ⟨file, listed, located, decoded⟩ := held _ text below there
  have some_ := table file listed located text document decoded parsed
  rw [noTable] at some_
  cases some_

end

/-! ### What a restore comes to -/

/-- Only its own files were accessed, the target is as before if there is an error, and nothing new
is left in the stage. -/
structure CleanRestore {α : Type} (location : RestorePlace) (slug : String)
    (start : DirTree (List UInt8)) (outcome : Except BackupError α × RestoreWorld) : Prop where
  confined : ∀ access ∈ outcome.2.accessed, access.confined location slug
  kept : ∀ error, outcome.1 = .error error → ∀ path, location.target slug <+: path →
    outcome.2.tree.node path = start.node path
  dropped : ∀ path, location.stage <+: path →
    outcome.2.tree.node path = none ∨ outcome.2.tree.node path = start.node path

/-- Before the swap: the target is as it was, and the stage is there. -/
structure FilledStage (location : RestorePlace) (slug : String) (start : DirTree (List UInt8))
    (world : RestoreWorld) : Prop where
  confined : ∀ access ∈ world.accessed, access.confined location slug
  target : ∀ path, location.target slug <+: path → world.tree.node path = start.node path
  old : world.tree.node location.old = start.node location.old
  stage : world.tree.node location.stage = some .directory
  networks : world.tree.node location.networks = some .directory

section

variable {location : RestorePlace} {slug : String} {start : DirTree (List UInt8)}
  {fault : Option FileFault} {world : RestoreWorld} {α β : Type}

theorem clean_bind {first : Restoring α} {next : α → Restoring β}
    (failed : ∀ error after, first world = (.error error, after) →
      CleanRestore (α := β) location slug start (.error error, after))
    (passed : ∀ value after, first world = (.ok value, after) →
      CleanRestore location slug start (next value after)) :
    CleanRestore location slug start ((first >>= next) world) := by
  cases outcome : first world with
  | mk result after =>
      cases result with
      | ok value =>
          rw [run_bind outcome]
          exact passed value after outcome
      | error error =>
          have same : (first >>= next) world = (.error error, after) :=
            error_bind.mpr (.inl outcome)
          rw [same]
          exact failed error after outcome

theorem accessed_concat {accessed : List FileAccess} {access : FileAccess}
    (before : ∀ access ∈ accessed, access.confined location slug)
    (now : access.confined location slug) :
    ∀ other ∈ accessed ++ [access], other.confined location slug := by
  intro other listed
  rcases List.mem_append.mp listed with earlier | last
  · exact before other earlier
  · rw [List.mem_singleton.mp last]
    exact now

theorem RestorePlace.owns_stage : location.owns slug location.stage := .inl List.prefix_rfl

theorem RestorePlace.owns_target : location.owns slug (location.target slug) :=
  .inr (.inl List.prefix_rfl)

theorem RestorePlace.owns_old : location.owns slug location.old := .inr (.inr List.prefix_rfl)

theorem RestorePlace.stage_ne_nil : location.stage ≠ [] := by
  simp [RestorePlace.stage]

/-- The stage is removed after an error. -/
theorem removeDirectory_stage (unstruck : FileFault.strikes fault .dropStage = false)
    (there : world.tree.node location.stage = some .directory) :
    tolerate (removeDirectory fault .dropStage location.stage) world =
      (.ok (), { tree := world.tree.removeAll location.stage
                 accessed := world.accessed ++ [.remove location.stage] }) := by
  have removed : removeDirectory fault .dropStage location.stage world =
      (.ok (), { tree := world.tree.removeAll location.stage
                 accessed := world.accessed ++ [.remove location.stage] }) :=
    attempt_done unstruck (if_pos (DirTree.isDirectory_iff.mpr there))
  rw [tolerate, removed]

/-- An error after which the stage is removed. -/
theorem clean_dropped {error : BackupError} (label : Names.isDnsLabel slug = true)
    (confined : ∀ access ∈ world.accessed, access.confined location slug)
    (target : ∀ path, location.target slug <+: path → world.tree.node path = start.node path) :
    CleanRestore (α := α) location slug start (.error error,
      { tree := world.tree.removeAll location.stage
        accessed := world.accessed ++ [.remove location.stage] }) where
  confined := accessed_concat confined RestorePlace.owns_stage
  kept := by
    intro _ _ path below
    have apart : ¬ location.stage <+: path :=
      RestorePlace.apart_below (RestorePlace.stage_ne_slug label).symm below
    exact (DirTree.removeAll_apart apart).trans (target path below)
  dropped := fun path below => .inl (DirTree.removeAll_below RestorePlace.stage_ne_nil below)

theorem onError_ok {body : Restoring α} {cleanup : BackupError → Restoring α} {value : α}
    {after : RestoreWorld} (done : body world = (.ok value, after)) :
    onError body cleanup world = (.ok value, after) := by
  rw [onError, done]

theorem onError_error {body : Restoring α} {cleanup : BackupError → Restoring α}
    {error : BackupError} {after : RestoreWorld} (failed : body world = (.error error, after))
    (steady : error ≠ .panicked) : onError body cleanup world = cleanup error after := by
  rw [onError, failed]
  cases error with
  | panicked => exact absurd rfl steady
  | failed message => rfl
  | io => rfl

theorem ifThere_absent {path : Path} {body : Restoring Unit}
    (absent : world.tree.node path = none) : ifThere path body world = (.ok (), world) := by
  rw [ifThere, absent]
  rfl

theorem ifThere_present {path : Path} {body : Restoring Unit}
    (present : (world.tree.node path).isSome = true) : ifThere path body world = body world :=
  if_pos present

/-- What is left of the replaced directory does not matter to anything else. -/
theorem removeOld_cases :
    ∃ after, ifThere location.old (tolerate (removeDirectory fault .dropRetired location.old)) world
        = (.ok (), after) ∧
      (∀ path, ¬ location.old <+: path → after.tree.node path = world.tree.node path) ∧
      (after.accessed = world.accessed ∨
        after.accessed = world.accessed ++ [.remove location.old]) := by
  cases there : world.tree.node location.old with
  | none => exact ⟨world, ifThere_absent there, fun _ _ => rfl, .inl rfl⟩
  | some node =>
      have present : (world.tree.node location.old).isSome = true := by rw [there]; rfl
      rw [ifThere_present present]
      refine ⟨_, rfl, ?_⟩
      generalize outcome : removeDirectory fault .dropRetired location.old world = result
      obtain ⟨result, after⟩ := result
      cases result with
      | ok _ =>
          obtain ⟨tree, does, rfl⟩ := attempt_ok outcome
          split at does
          · cases does
            exact ⟨fun _ apart => DirTree.removeAll_apart apart, .inr rfl⟩
          · cases does
      | error error =>
          rcases (attempt_error outcome).2 with rfl | ⟨_, failing, rfl⟩
          · exact ⟨fun _ _ => rfl, .inr rfl⟩
          · exact ⟨fun _ apart => DirTree.removeSome_apart apart, .inr rfl⟩

theorem moveDirectory_struck {call : RestoreCall} (source dest : Path) (world : RestoreWorld)
    (struck : FileFault.strikes fault call = true) :
    moveDirectory fault call source dest world = (.error .io,
      { tree := world.tree, accessed := world.accessed ++ [.rename source dest] }) := by
  obtain ⟨_, failed⟩ := attempt_struck (.rename source dest) (DirTree.rename source dest)
    (fun _ tree => tree) world struck
  exact failed

theorem moveDirectory_done {call : RestoreCall} {source dest : Path} {tree : DirTree (List UInt8)}
    (spared : FileFault.strikes fault call = false)
    (moved : world.tree.rename source dest = some tree) :
    moveDirectory fault call source dest world = (.ok (),
      { tree := tree, accessed := world.accessed ++ [.rename source dest] }) :=
  attempt_done spared moved

/-- The stage takes its place, and what was there before is removed if that is possible. -/
theorem clean_placed {tree : DirTree (List UInt8)} (label : Names.isDnsLabel slug = true)
    (confined : ∀ access ∈ world.accessed, access.confined location slug)
    (moved : world.tree.rename location.stage (location.target slug) = some tree) :
    CleanRestore location slug start
      (ifThere location.old (tolerate (removeDirectory fault .dropRetired location.old))
        { tree := tree
          accessed := world.accessed ++ [.rename location.stage (location.target slug)] }) := by
  have renamed : ∀ access ∈ world.accessed ++ [.rename location.stage (location.target slug)],
      access.confined location slug :=
    accessed_concat confined ⟨RestorePlace.owns_stage, RestorePlace.owns_target⟩
  obtain ⟨after, ends, others, accesses⟩ := @removeOld_cases location fault
    { tree := tree, accessed := world.accessed ++ [.rename location.stage (location.target slug)] }
  rw [ends]
  refine ⟨?_, ?_, fun path below => .inl ?_⟩
  · rcases accesses with same | more
    · rw [same]
      exact renamed
    · rw [more]
      exact accessed_concat renamed RestorePlace.owns_old
  · intro error failed
    cases failed
  · rw [others path (RestorePlace.apart_below RestorePlace.stageName_ne_oldName below)]
    exact DirTree.rename_gone moved below
      (RestorePlace.apart_below (RestorePlace.stage_ne_slug label) below)

/-- The stage cannot take its place: the target is as it was, whether it had been moved away or
not. -/
theorem clean_giveUpPlacing (label : Names.isDnsLabel slug = true)
    (unstruck : FileFault.strikes fault .dropStage = false)
    (spared : FileFault.strikes fault .putBack = false)
    (confined : ∀ access ∈ world.accessed, access.confined location slug)
    (stage : world.tree.node location.stage = some .directory)
    (networks : world.tree.node location.networks = some .directory)
    (free : world.tree.node (location.target slug) = none)
    (back : (world.tree.node location.old = none ∧
        ∀ path, location.target slug <+: path → world.tree.node path = start.node path) ∨
      ((world.tree.node location.old).isSome = true ∧
        ∀ rest, world.tree.node (location.old ++ rest) =
          start.node (location.target slug ++ rest))) :
    ∃ error after, giveUpPlacing fault location slug world = (.error error, after) ∧
      CleanRestore (α := Unit) location slug start (.error error, after) := by
  have oldStage : ∀ path, location.old <+: path → ¬ location.stage <+: path :=
    fun path below => RestorePlace.apart_below RestorePlace.stageName_ne_oldName.symm below
  have targetStage : ∀ path, location.target slug <+: path → ¬ location.stage <+: path :=
    fun path below => RestorePlace.apart_below (RestorePlace.stage_ne_slug label).symm below
  rw [giveUpPlacing, run_bind (removeDirectory_stage unstruck stage)]
  refine ⟨.failed "復元したネットワークを配置できません", ?_⟩
  rcases back with ⟨absent, same⟩ | ⟨present, same⟩
  · -- nothing had been moved away
    have gone : (world.tree.removeAll location.stage).node location.old = none := by
      rw [DirTree.removeAll_apart (oldStage _ List.prefix_rfl), absent]
    rw [run_bind (ifThere_absent gone)]
    exact ⟨_, rfl, clean_dropped label confined same⟩
  · -- the target comes back
    have there : (world.tree.removeAll location.stage).node location.old =
        world.tree.node location.old := DirTree.removeAll_apart (oldStage _ List.prefix_rfl)
    have notAbove : ¬ location.stage <+: location.networks :=
      fun above => RestorePlace.not_above_networks above List.prefix_rfl
    obtain ⟨tree, moved⟩ := @DirTree.rename_exists _ (world.tree.removeAll location.stage)
      location.old (location.target slug) (by simp [RestorePlace.old]) (by rw [there, present])
      (by rw [DirTree.removeAll_apart (targetStage _ List.prefix_rfl), free])
      (by rw [RestorePlace.target, List.dropLast_concat, DirTree.removeAll_apart notAbove, networks])
      (RestorePlace.apart_of_ne (RestorePlace.old_ne_slug label))
    have returned : ifThere location.old
        (tolerate (moveDirectory fault .putBack location.old (location.target slug)))
        { tree := world.tree.removeAll location.stage
          accessed := world.accessed ++ [.remove location.stage] } =
        (.ok (), { tree := tree
                   accessed := world.accessed ++ [.remove location.stage] ++
                     [.rename location.old (location.target slug)] }) := by
      rw [ifThere_present (by rw [there, present]), tolerate, moveDirectory_done spared moved]
    rw [run_bind returned]
    refine ⟨_, rfl, ?_, ?_, fun path below => .inl ?_⟩
    · exact accessed_concat (accessed_concat confined RestorePlace.owns_stage)
        ⟨RestorePlace.owns_old, RestorePlace.owns_target⟩
    · intro _ _ path below
      obtain ⟨rest, rfl⟩ := below
      dsimp only
      rw [DirTree.rename_below moved, DirTree.removeAll_apart (oldStage _ (List.prefix_append _ _)),
        same]
    · rw [DirTree.rename_apart moved
        (RestorePlace.apart_below RestorePlace.stageName_ne_oldName below)
        (RestorePlace.apart_below (RestorePlace.stage_ne_slug label) below)]
      exact DirTree.removeAll_below RestorePlace.stage_ne_nil below

/-- The stage is moved to where no target is. -/
theorem clean_place (label : Names.isDnsLabel slug = true)
    (unstruck : FileFault.strikes fault .dropStage = false)
    (confined : ∀ access ∈ world.accessed, access.confined location slug)
    (stage : world.tree.node location.stage = some .directory)
    (networks : world.tree.node location.networks = some .directory)
    (free : world.tree.node (location.target slug) = none)
    (back : FileFault.strikes fault .place = true →
      (world.tree.node location.old = none ∧
        ∀ path, location.target slug <+: path → world.tree.node path = start.node path) ∨
      ((world.tree.node location.old).isSome = true ∧
        ∀ rest, world.tree.node (location.old ++ rest) =
          start.node (location.target slug ++ rest))) :
    CleanRestore location slug start
      ((onError (moveDirectory fault .place location.stage (location.target slug))
          (fun _ => giveUpPlacing fault location slug) >>= fun _ =>
        ifThere location.old
          (tolerate (removeDirectory fault .dropRetired location.old))) world) := by
  cases struck : FileFault.strikes fault .place with
  | false =>
      obtain ⟨tree, moved⟩ := @DirTree.rename_exists _ world.tree location.stage
        (location.target slug) RestorePlace.stage_ne_nil (by rw [stage]; rfl) free
        (by rw [RestorePlace.target, List.dropLast_concat]; exact networks)
        (RestorePlace.apart_of_ne (RestorePlace.stage_ne_slug label))
      rw [run_bind (onError_ok (moveDirectory_done struck moved))]
      exact clean_placed label confined moved
  | true =>
      have failed := moveDirectory_struck location.stage (location.target slug) world struck
      have renamed := accessed_concat confined
        (show FileAccess.confined location slug (.rename location.stage (location.target slug)) from
          ⟨RestorePlace.owns_stage, RestorePlace.owns_target⟩)
      obtain ⟨error, after, gaveUp, clean⟩ := @clean_giveUpPlacing location slug start fault
        { tree := world.tree
          accessed := world.accessed ++ [.rename location.stage (location.target slug)] }
        label unstruck (strikes_once struck (by decide)) renamed stage networks free (back struck)
      have ended : onError (moveDirectory fault .place location.stage (location.target slug))
          (fun _ => giveUpPlacing fault location slug) world = (.error error, after) :=
        (onError_error failed (by decide)).trans gaveUp
      refine clean_bind (fun other last same => ?_) (fun _ _ same => ?_)
      · rw [ended] at same
        cases same
        exact clean
      · rw [ended] at same
        cases same

/-- Before the stage takes its place the target is moved away, or is not there. -/
theorem clean_swapIn (label : Names.isDnsLabel slug = true)
    (filled : FilledStage location slug start world)
    (unstruck : FileFault.strikes fault .dropStage = false)
    (noJunk : ¬ (FileFault.strikes fault .place = true ∧
      start.node (location.target slug) = none ∧ (start.node location.old).isSome = true)) :
    CleanRestore location slug start (swapIn fault location slug world) := by
  unfold swapIn
  cases there : world.tree.node (location.target slug) with
  | none =>
      have absent : start.node (location.target slug) = none :=
        (filled.target _ List.prefix_rfl).symm.trans there
      rw [run_bind (ifThere_absent there)]
      refine clean_place label unstruck filled.confined filled.stage filled.networks there ?_
      intro struck
      have noOld : start.node location.old = none := by
        rw [← Option.not_isSome_iff_eq_none]
        exact fun present => noJunk ⟨struck, absent, present⟩
      exact .inl ⟨filled.old.trans noOld, filled.target⟩
  | some node =>
      have present : (world.tree.node (location.target slug)).isSome = true := by rw [there]; rfl
      have renamed := accessed_concat filled.confined
        (show FileAccess.confined location slug (.rename (location.target slug) location.old) from
          ⟨RestorePlace.owns_target, RestorePlace.owns_old⟩)
      refine clean_bind (fun error after failed => ?_) (fun done after passed => ?_)
      · -- the target stays, and the stage is removed
        rw [ifThere_present present] at failed
        generalize outcome : moveDirectory fault .retire (location.target slug) location.old world
          = result at failed
        obtain ⟨result, middle⟩ := result
        cases result with
        | ok _ =>
            rw [onError_ok outcome] at failed
            cases failed
        | error first =>
            obtain ⟨rfl, ends⟩ := attempt_error outcome
            have middle_ : middle = { tree := world.tree, accessed := world.accessed ++
                [.rename (location.target slug) location.old] } := by
              rcases ends with same | ⟨_, _, same⟩
              · exact same
              · exact same
            subst middle_
            have removed := @removeDirectory_stage location fault
              { tree := world.tree
                accessed := world.accessed ++ [.rename (location.target slug) location.old] }
              unstruck filled.stage
            rw [onError_error outcome (by decide), giveUpRetiring, run_bind removed] at failed
            cases failed
            exact clean_dropped label renamed filled.target
      · -- the target is away
        rw [ifThere_present present] at passed
        generalize outcome : moveDirectory fault .retire (location.target slug) location.old world
          = result at passed
        obtain ⟨result, middle⟩ := result
        cases result with
        | error first =>
            obtain ⟨rfl, ends⟩ := attempt_error outcome
            rw [onError_error outcome (by decide), giveUpRetiring] at passed
            obtain ⟨_, _, _, last⟩ := ok_bind.mp passed
            cases (ok_lift.mp last).1
        | ok _ =>
            rw [onError_ok outcome] at passed
            cases passed
            obtain ⟨tree, moved, rfl⟩ := attempt_ok outcome
            have networksApart : ∀ name, ¬ location.networks ++ [name] <+: location.networks :=
              fun name above => RestorePlace.not_above_networks above List.prefix_rfl
            refine clean_place label unstruck renamed ?_ ?_ ?_ (fun _ => .inr ⟨?_, ?_⟩)
            · have stays : tree.node location.stage = world.tree.node location.stage :=
                DirTree.rename_apart moved
                  (RestorePlace.apart_of_ne (RestorePlace.stage_ne_slug label).symm)
                  (RestorePlace.apart_of_ne RestorePlace.stageName_ne_oldName.symm)
              exact stays.trans filled.stage
            · exact (DirTree.rename_apart moved (networksApart _) (networksApart _)).trans
                filled.networks
            · exact DirTree.rename_gone moved List.prefix_rfl
                (RestorePlace.apart_of_ne (RestorePlace.old_ne_slug label))
            · have arrived := DirTree.rename_below moved []
              rw [List.append_nil, List.append_nil] at arrived
              rw [arrived, present]
            · intro rest
              rw [DirTree.rename_below moved, filled.target _ (List.prefix_append _ _)]

/-! ### The whole restore -/

variable {δ κ : Type} {tools : BackupTools δ κ}

/-- The payload and the failing operation keep a restore to what it should do: the configuration is
named below the stage and has a table of the interface, the removal of the stage does not fail, and
nothing is in the way of the directory that the target is moved to. -/
structure RestoresCarefully (tools : BackupTools δ κ) (fault : Option FileFault)
    (location : RestorePlace) (payload : BackupPayload) (slug : String)
    (start : DirTree (List UInt8)) : Prop where
  inside : location.stage <+: UnixPath.locate location.stage payload.preview.configFile
  table : ConfigHasTable tools location payload slug
  unstruck : FileFault.strikes fault .dropStage = false
  noJunk : ¬ (FileFault.strikes fault .place = true ∧
    start.node (location.target slug) = none ∧ (start.node location.old).isSome = true)

/-- What holds before the stage is filled. -/
structure BeforeStage (location : RestorePlace) (slug : String) (start : DirTree (List UInt8))
    (world : RestoreWorld) : Prop where
  confined : ∀ access ∈ world.accessed, access.confined location slug
  outside : ∀ path, ¬ location.stage <+: path → ¬ path <+: location.networks →
    world.tree.node path = start.node path
  stage : ∀ path, location.stage <+: path →
    world.tree.node path = none ∨ world.tree.node path = start.node path

theorem BeforeStage.clean_error {error : BackupError} (label : Names.isDnsLabel slug = true)
    (before : BeforeStage location slug start world) :
    CleanRestore (α := α) location slug start (.error error, world) where
  confined := before.confined
  kept := fun _ _ path below => before.outside path
    (RestorePlace.apart_below (RestorePlace.stage_ne_slug label).symm below)
    (RestorePlace.not_above_networks below)
  dropped := before.stage

theorem BeforeStage.networksCreated {call : RestoreCall} {after : RestoreWorld}
    {result : Except BackupError Unit} (before : BeforeStage location slug start world)
    (done : createDirectories fault call location.networks world = (result, after)) :
    BeforeStage location slug start after := by
  have fits : (FileAccess.createDirs location.networks).confined location slug :=
    .inl List.prefix_rfl
  have moves : Staging location slug world
      (createDirectories fault call location.networks world).2 :=
    moves_createDirectories fits world
  rw [done] at moves
  refine ⟨moves.confined before.confined, ?_, ?_⟩
  · intro path apart noDirectory
    exact (moves.files.outside path apart noDirectory).trans
      (before.outside path apart noDirectory)
  · intro path below
    have same : after.tree.node path = world.tree.node path := by
      cases result with
      | ok _ =>
          obtain ⟨tree, created, rfl⟩ := attempt_ok done
          exact DirTree.createDirs_apart created (RestorePlace.not_above_networks below)
      | error error =>
          rcases (attempt_error done).2 with rfl | ⟨_, _, rfl⟩
          · rfl
          · rfl
    rw [same]
    exact before.stage path below

theorem BeforeStage.staleRemoved {after : RestoreWorld} {result : Except BackupError Unit}
    (before : BeforeStage location slug start world)
    (done : ifThere location.stage (removeDirectory fault .removeStale location.stage) world
      = (result, after)) :
    BeforeStage location slug start after ∧
      (result = .ok () → after.tree.node location.stage = none ∧
        (∀ path, ¬ location.stage <+: path → after.tree.node path = world.tree.node path)) := by
  cases there : world.tree.node location.stage with
  | none =>
      rw [ifThere_absent there] at done
      cases done
      exact ⟨before, fun _ => ⟨there, fun _ _ => rfl⟩⟩
  | some node =>
      rw [ifThere_present (by rw [there]; rfl)] at done
      have accesses := accessed_concat before.confined
        (show FileAccess.confined location slug (.remove location.stage) from
          RestorePlace.owns_stage)
      -- what a removal leaves in the stage was there before
      have leaves : ∀ spared : Path → Bool, BeforeStage location slug start
          { tree := world.tree.removeSome spared location.stage
            accessed := world.accessed ++ [.remove location.stage] } := by
        intro spared
        refine ⟨accesses, fun path apart noDirectory => ?_, fun path below => ?_⟩
        · exact (DirTree.removeSome_apart apart).trans (before.outside path apart noDirectory)
        · rcases DirTree.removeSome_cases spared location.stage world.tree path with gone | same
          · exact .inl gone
          · rw [same]
            exact before.stage path below
      cases result with
      | ok _ =>
          obtain ⟨tree, does, rfl⟩ := attempt_ok done
          split at does
          · cases does
            refine ⟨leaves _, fun _ => ⟨?_, fun path apart => DirTree.removeAll_apart apart⟩⟩
            exact DirTree.removeAll_below RestorePlace.stage_ne_nil List.prefix_rfl
          · cases does
      | error error =>
          refine ⟨?_, fun same => by cases same⟩
          rcases (attempt_error done).2 with rfl | ⟨_, failing, rfl⟩
          · exact ⟨accesses, before.outside, before.stage⟩
          · exact leaves failing.spared

theorem CleanRestore.retype {error : BackupError} {after : RestoreWorld}
    (clean : CleanRestore (α := α) location slug start (.error error, after)) :
    CleanRestore (α := β) location slug start (.error error, after) :=
  ⟨clean.confined, fun _ _ => clean.kept error rfl, clean.dropped⟩

/-- The stage is filled, or removed again. -/
theorem clean_fill {payload : BackupPayload} {after : RestoreWorld}
    {result : Except BackupError Unit} (label : Names.isDnsLabel slug = true)
    (careful : RestoresCarefully tools fault location payload slug start)
    (filled : FilledStage location slug start world)
    (held : HeldStage tools location payload.files world)
    (done : onError (restoreToStage tools fault payload location.stage slug) (fun error => do
      tolerate (removeDirectory fault .dropStage location.stage)
      lift (.error error)) world = (result, after)) :
    (∃ error, result = .error error ∧
        CleanRestore (α := Unit) location slug start (.error error, after)) ∨
      result = .ok () ∧ FilledStage location slug start after := by
  have moves : Staging location slug world
      (restoreToStage tools fault payload location.stage slug world).2 :=
    moves_restoreToStage careful.inside world
  generalize outcome : restoreToStage tools fault payload location.stage slug world = ended at moves
  obtain ⟨ended, middle⟩ := ended
  have confined := moves.confined filled.confined
  have stage := moves.files.directories _ filled.stage
  have target : ∀ path, location.target slug <+: path →
      middle.tree.node path = start.node path := by
    intro path below
    have same := moves.files.outside path
      (RestorePlace.apart_below (RestorePlace.stage_ne_slug label).symm below)
      (RestorePlace.not_above_networks below)
    exact same.trans (filled.target path below)
  cases ended with
  | ok _ =>
      rw [onError_ok outcome] at done
      cases done
      have old := moves.files.outside location.old
        (RestorePlace.apart_of_ne RestorePlace.stageName_ne_oldName)
        (RestorePlace.not_above_networks List.prefix_rfl)
      exact .inr ⟨rfl, confined, target, old.trans filled.old, stage,
        moves.files.directories _ filled.networks⟩
  | error error =>
      have steady : error ≠ .panicked := by
        rintro rfl
        exact restoreToStage_steady careful.inside careful.table held outcome
      rw [onError_error outcome steady,
        run_bind (removeDirectory_stage careful.unstruck stage)] at done
      cases done
      exact .inl ⟨error, rfl, clean_dropped label confined target⟩

/-- The new stage is empty. -/
theorem filled_createStage {after : RestoreWorld} {files : List BackupFile}
    (label : Names.isDnsLabel slug = true) (before : BeforeStage location slug start world)
    (networks : world.tree.node location.networks = some .directory)
    (absent : world.tree.node location.stage = none)
    (created : createDirectories fault .createStage location.stage world = (.ok (), after)) :
    FilledStage location slug start after ∧ HeldStage tools location files after := by
  obtain ⟨tree, does, rfl⟩ := attempt_ok created
  have others : ∀ path, ¬ location.stage <+: path → ¬ path <+: location.networks →
      tree.node path = start.node path := by
    intro path apart noDirectory
    have notAbove : ¬ path <+: location.stage := by
      intro above
      by_cases same : path = location.stage
      · exact apart (same ▸ List.prefix_rfl)
      · exact noDirectory (RestorePlace.above_networks above same)
    exact (DirTree.createDirs_apart does notAbove).trans (before.outside path apart noDirectory)
  refine ⟨⟨?_, ?_, ?_, DirTree.directory_created does List.prefix_rfl,
    DirTree.directory_createDirs does networks⟩, ?_⟩
  · exact accessed_concat before.confined (.inr List.prefix_rfl)
  · intro path below
    exact others path (RestorePlace.apart_below (RestorePlace.stage_ne_slug label).symm below)
      (RestorePlace.not_above_networks below)
  · exact others _ (RestorePlace.apart_of_ne RestorePlace.stageName_ne_oldName)
      (RestorePlace.not_above_networks List.prefix_rfl)
  · intro path content below there
    dsimp only at there
    rw [DirTree.createDirs_some does] at there
    dsimp only at there
    split at there
    · cases there
    · rw [DirTree.absent_below absent below] at there
      cases there

/-- The payload is restored carefully: nothing else is touched, an error leaves the target as it
was, and no stage is left. -/
theorem clean_restorePayload {payload : BackupPayload} (label : Names.isDnsLabel slug = true)
    (careful : RestoresCarefully tools fault location payload slug start) (mode : RestoreMode) :
    CleanRestore location slug start
      (restorePayload tools fault location payload slug mode { tree := start }) := by
  have first : BeforeStage location slug start { tree := start } :=
    ⟨by simp, fun _ _ _ => rfl, fun _ _ => .inr rfl⟩
  unfold restorePayload
  refine clean_bind (fun error after failed => by cases failed) (fun there after same => ?_)
  obtain ⟨rfl, rfl⟩ := ok_query.mp same
  refine clean_bind (fun error after failed => ?_) (fun _ after passed => ?_)
  · obtain ⟨_, rfl, rfl⟩ := refuse_error failed
    exact first.clean_error label
  obtain ⟨_, rfl⟩ := ok_refuse.mp passed
  refine clean_bind (fun error after failed => by cases failed) (fun host after same => ?_)
  obtain ⟨rfl, rfl⟩ := ok_query.mp same
  refine clean_bind (fun error after failed => by cases failed) (fun member after same => ?_)
  obtain ⟨rfl, rfl⟩ := ok_query.mp same
  refine clean_bind (fun error after failed => ?_) (fun _ after passed => ?_)
  · obtain ⟨_, rfl, rfl⟩ := refuse_error failed
    exact first.clean_error label
  obtain ⟨_, rfl⟩ := ok_refuse.mp passed
  refine clean_bind (fun error after failed => ?_) (fun _ opened created => ?_)
  · exact (first.networksCreated failed).clean_error label
  have second := first.networksCreated created
  have networks : opened.tree.node location.networks = some .directory := by
    obtain ⟨tree, does, rfl⟩ := attempt_ok created
    exact DirTree.directory_created does List.prefix_rfl
  refine clean_bind (fun error after failed => ?_) (fun _ cleared removed => ?_)
  · exact (second.staleRemoved failed).1.clean_error label
  obtain ⟨third, absent⟩ := second.staleRemoved removed
  obtain ⟨absent, others⟩ := absent rfl
  have networks : cleared.tree.node location.networks = some .directory :=
    (others _ (fun above => RestorePlace.not_above_networks above List.prefix_rfl)).trans networks
  refine clean_bind (fun error after failed => ?_) (fun _ staged created => ?_)
  · -- a stage that is not created is not there
    rcases (attempt_error failed).2 with rfl | ⟨_, _, rfl⟩
    · exact (BeforeStage.clean_error label ⟨accessed_concat third.confined (.inr List.prefix_rfl),
        third.outside, third.stage⟩)
    · exact (BeforeStage.clean_error label ⟨accessed_concat third.confined (.inr List.prefix_rfl),
        third.outside, third.stage⟩)
  have freshStage : FilledStage location slug start staged ∧
      HeldStage tools location payload.files staged :=
    filled_createStage label third networks absent created
  refine clean_bind (fun error after failed => ?_) (fun _ full done => ?_)
  · rcases clean_fill label careful freshStage.1 freshStage.2 failed with
      ⟨_, same, clean⟩ | ⟨same, _⟩
    · cases same
      exact clean.retype
    · cases same
  rcases clean_fill label careful freshStage.1 freshStage.2 done with ⟨_, same, _⟩ | ⟨_, filled⟩
  · cases same
  have swapped := clean_swapIn label filled careful.unstruck careful.noJunk
  refine clean_bind (fun error after failed => ?_) (fun _ after passed => ?_)
  · rw [failed] at swapped
    exact swapped.retype
  · rw [passed] at swapped
    refine ⟨swapped.confined, fun error failed => ?_, swapped.dropped⟩
    cases failed

end

/-! ### Examples -/

/-- Documents with `[interface]` as their only table, and without a name of the network. -/
def appendingToml (config : Config) : TomlTools (List UInt8) where
  fromStr := fun _ => some
    { config := config, privateKeyFile := "secrets/private.key", presharedKeyFiles := [] }
  parse := some
  print := id
  setPrivateKeyFile := fun name text =>
    some (text ++ Text.utf8Bytes s!"private_key_file = \"{name}\"\n")
  setNetworkName := fun slug text => some (text ++ Text.utf8Bytes s!"network_name = \"{slug}\"\n")
  peerTables := fun _ => none
  setPresharedKeyFile := fun _ _ text => text

/-- What a host begins with. -/
def bareHost : Config where
  interface := { networkName := some "copy", address := Ipv4Net.slash24 0x0A630001#32 }

/-- The libraries, where the text that is decrypted is this payload. -/
def openedBackup (payload : BackupPayload) : BackupTools (List UInt8) Unit where
  toml := appendingToml bareHost
  encode := Base64Url.encode
  decode := Base64Url.decode
  fromSlice := fun _ => some payload
  argon2 := fun _ _ _ _ _ => some ()
  encrypt := fun _ _ _ text => some (text ++ List.replicate Backup.TAG_LEN 0)
  decrypt := fun _ _ _ sealed => some (sealed.take (sealed.length - Backup.TAG_LEN))

def sealedFile (payload : BackupPayload) : List UInt8 :=
  encodeHeader {
    memoryKib := Backup.MEMORY_KIB
    iterations := Backup.ITERATIONS
    parallelism := Backup.PARALLELISM
    salt := List.replicate Backup.SALT_LEN 1
    nonce := List.replicate Backup.NONCE_LEN 2
    ciphertextLen := payload.toVec.length + Backup.TAG_LEN } ++
  (payload.toVec ++ List.replicate Backup.TAG_LEN 0)

def bareText : List UInt8 :=
  Text.utf8Bytes "[interface]\naddress = \"10.99.0.1/24\"\nprivate_key_file = \"host.key\"\n"

/-- A payload that names this file as its configuration. -/
def smallPayload (configFile : String) (files : List BackupFile) : BackupPayload where
  preview := {
    networkName := "home", role := .host, sourceOs := "linux", createdAtUnixMs := 1000
    categories := ["network_config", "keys"], configFile := configFile
    memberKeyRotationRecommended := false }
  files := files

def homePlace : RestorePlace where
  networks := ["srv", "networks"]
  pid := 7
  stagedMs := 2000
  retiredMs := 2001

/-- The directory of a network with its configuration. -/
def oneNetwork (name : String) : DirTree (List UInt8) :=
  ((DirTree.empty.createDirs ["srv", "networks", name]).bind
    (fun tree => tree.write ["srv", "networks", name, "host.toml"] bareText)).getD DirTree.empty

/-- A payload with the text `[interface]` as its configuration. -/
def plainPayload : BackupPayload :=
  smallPayload "host.toml"
    [{ path := "host.toml", contentBase64 := "W2ludGVyZmFjZV0K", secret := true }]

/-- The configuration is torn while it is rewritten. -/
def tornConfig : FileFault where
  call := .writeConfig
  torn := some []
  spared := fun _ => true

/-- A payload whose configuration is in another network. -/
def strayPayload : BackupPayload :=
  smallPayload "../victim/host.toml" []

end PeerCove
