/-
Module: PeerCove.Proofs.BackupRoundTrip
Layer: Proofs
Purpose: A backup restores the configuration, the keys, the PSK of every peer, the groups and the
  memos of a network, as long as its file is not too large.
Trusted boundary: none
Main exports: LeadsTo, stageFiles_done, RestoredNetwork, backup_restores_iff, backup_restores_small
-/
import PeerCove.Proofs.BackupSealing
import PeerCove.Proofs.PolicyMigration
import PeerCove.Proofs.RestoreConfinement

namespace PeerCove

open FileTree Fallible Stateful

/-! ### The names in a backup -/

/-- A path that leads down from a directory, to a file. -/
structure LeadsTo (text : String) (names : List String) : Prop where
  relative : UnixPath.isAbsolute text = false
  components : UnixPath.components text = names.map Component.name
  opens : UnixPath.opensFile text = true

theorem LeadsTo.locate {text : String} {names : List String} (leads : LeadsTo text names)
    (directory : Path) : UnixPath.locate directory text = directory ++ names := by
  rw [UnixPath.locate, leads.relative, if_neg Bool.false_ne_true, leads.components,
    normalize_names]

/-- The name of a PSK file in its directory. -/
def pskLeaf (index : Nat) : String :=
  s!"peer-{index}.psk"

theorem pskLeaf_toList (index : Nat) :
    (pskLeaf index).toList = "peer-".toList ++ index.repr.toList ++ ".psk".toList := by
  simp [pskLeaf, String.toList_append, toString]

theorem pskName_toList (index : Nat) :
    (pskName index).toList = "secrets".toList ++ '/' :: (pskLeaf index).toList := by
  rw [pskLeaf_toList]
  simp [pskName, String.toList_append, toString]

/-- Digits are none of the characters that mean something in a path. -/
theorem digits_plain {c : Char} (special : c.isDigit = false) (index : Nat) :
    c ∉ index.repr.toList := by
  intro member
  have digit := Names.repr_digits c member
  rw [special] at digit
  cases digit

theorem pskLeaf_plain (index : Nat) {c : Char} (special : c.isDigit = false)
    (front : c ∉ "peer-".toList) (back : c ∉ ".psk".toList) : c ∉ (pskLeaf index).toList := by
  rw [pskLeaf_toList]
  intro member
  rcases List.mem_append.mp member with member | member
  · rcases List.mem_append.mp member with member | member
    · exact front member
    · exact digits_plain special index member
  · exact back member

theorem pskName_parts (index : Nat) :
    UnixPath.parts (pskName index) = ["secrets".toList, (pskLeaf index).toList] := by
  have noSlash : '/' ∉ (pskLeaf index).toList :=
    pskLeaf_plain index (by decide) (by decide) (by decide)
  rw [UnixPath.parts, pskName_toList, List.splitOn_append_cons_self,
    List.splitOn_eq_singleton noSlash, List.splitOn_eq_singleton (by decide)]
  rfl

theorem pskLeaf_component (index : Nat) :
    UnixPath.component (pskLeaf index).toList = some (.name (pskLeaf index)) := by
  have begins : ∃ rest, (pskLeaf index).toList = 'p' :: rest := by
    rw [pskLeaf_toList]
    exact ⟨_, rfl⟩
  obtain ⟨rest, same⟩ := begins
  have text : String.ofList ('p' :: rest) = pskLeaf index := by
    rw [← same, String.ofList_toList]
  rw [same, UnixPath.component, text]
  simp

theorem leadsTo_pskName (index : Nat) : LeadsTo (pskName index) ["secrets", pskLeaf index] where
  relative := by
    rw [UnixPath.isAbsolute, pskName_toList]
    rfl
  components := by
    have secrets : UnixPath.component "secrets".toList = some (.name "secrets") := by
      decide
    rw [UnixPath.components, pskName_parts]
    simp only [List.filterMap_cons, secrets, pskLeaf_component, List.filterMap_nil, List.map_cons,
      List.map_nil]
  opens := by
    have noNull : Char.ofNat 0 ∉ (pskName index).toList := by
      rw [pskName_toList]
      intro member
      rcases List.mem_append.mp member with front | back
      · revert front
        decide
      · rcases List.mem_cons.mp back with slash | leaf
        · revert slash
          decide
        · exact pskLeaf_plain index (by decide) (by decide) (by decide) leaf
    rw [UnixPath.opensFile, pskName_parts]
    simp [pskLeaf_component, noNull]

theorem pskName_noDots (index : Nat) : UnixPath.hasDots (pskName index) = false := by
  rw [← Bool.not_eq_true, UnixPath.hasDots_iff, pskName_toList, pskLeaf_toList]
  intro dots
  -- there is one dot only
  have twice := dots.sublist.count_le '.'
  have digits : '.' ∉ index.repr.toList := digits_plain (by decide) index
  rw [Nat.toList_repr] at digits
  simp [List.count_append, digits] at twice

theorem validBackupName_psk (allowed : String) (index : Nat) :
    validBackupName allowed (pskName index) = true := by
  have noSlash : '/' ∉ (pskLeaf index).toList :=
    pskLeaf_plain index (by decide) (by decide) (by decide)
  have begins : Text.startsWith (pskName index) "secrets/" = true := by
    rw [Text.startsWith, pskName_toList]
    simp
  have rest : (pskName index).toList.drop 8 = (pskLeaf index).toList := by
    rw [pskName_toList]
    rfl
  rw [validBackupName, begins, rest, pskName_noDots, (leadsTo_pskName index).relative]
  simp [noSlash]

/-! ### Filling the stage -/

section

variable {δ κ : Type} {tools : BackupTools δ κ} {location : RestorePlace} {slug : String}
  {world : RestoreWorld}

/-- No operation fails. -/
theorem unstruck_none (call : RestoreCall) : FileFault.strikes none call = false := rfl

/-- The stage has no directory but `secrets`, which is no file. -/
structure StageReady (location : RestorePlace) (tree : DirTree (List UInt8)) : Prop where
  stage : tree.node location.stage = some .directory
  directories : ∀ names, tree.node (location.stage ++ names) = some .directory →
    names = [] ∨ names = ["secrets"]
  secrets : tree.contents (location.stage ++ ["secrets"]) = none

/-- A name directly in the stage, or in `secrets`. -/
def StageName (names : List String) : Prop :=
  (∃ name, names = [name] ∧ name ≠ "secrets") ∨ ∃ name, names = ["secrets", name]

/-- A file of a payload with where it leads and what it holds. -/
structure Stageable (tools : BackupTools δ κ) (allowed : String) (file : BackupFile)
    (names : List String) (bytes : List UInt8) : Prop where
  valid : validBackupName allowed file.path = true
  leads : LeadsTo file.path names
  shape : StageName names
  decoded : tools.decode file.contentBase64 = some bytes

/-- The parent of a file in the stage can be created; nothing but `secrets` is new. -/
theorem createParent_done {tree : DirTree (List UInt8)} {names : List String}
    (ready : StageReady location tree) (shape : StageName names) :
    ∃ after, tree.createDirs (location.stage ++ names).dropLast = some after ∧
      StageReady location after ∧
      after.node (location.stage ++ names).dropLast = some .directory ∧
      ∀ path content, after.node path = some (.file content) ↔
        tree.node path = some (.file content) := by
  obtain ⟨parent, same, inside⟩ : ∃ parent, (location.stage ++ names).dropLast =
      location.stage ++ parent ∧ (parent = [] ∨ parent = ["secrets"]) := by
    rcases shape with ⟨name, rfl, _⟩ | ⟨name, rfl⟩
    · exact ⟨[], by simp, .inl rfl⟩
    · exact ⟨["secrets"], by simp, .inr rfl⟩
  have clear : ∀ above, above <+: location.stage ++ parent → tree.contents above = none := by
    intro above below
    rcases inside with rfl | rfl
    · exact DirTree.no_file_above ready.stage (by rwa [List.append_nil] at below)
    · rcases List.prefix_concat_iff.mp below with rfl | shorter
      · exact ready.secrets
      · exact DirTree.no_file_above ready.stage shorter
  obtain ⟨after, created⟩ := DirTree.createDirs_exists clear
  rw [same]
  refine ⟨after, created, ⟨DirTree.directory_createDirs created ready.stage, ?_, ?_⟩,
    DirTree.directory_created created List.prefix_rfl, fun _ _ => DirTree.file_createDirs created⟩
  · intro others directory
    by_cases above : location.stage ++ others <+: location.stage ++ parent
    · have shorter := (List.prefix_append_right_inj _).mp above
      rcases inside with rfl | rfl
      · exact .inl (List.prefix_nil.mp shorter)
      · rcases List.prefix_cons_iff.mp shorter with empty | ⟨rest, whole, last⟩
        · exact .inl empty
        · rw [List.prefix_nil.mp last] at whole
          exact .inr whole
    · rw [DirTree.createDirs_apart created above] at directory
      exact ready.directories others directory
  · cases found : after.contents (location.stage ++ ["secrets"]) with
    | none => rfl
    | some content =>
        have file := (DirTree.file_createDirs created).mp (DirTree.contents_eq_some.mp found)
        rw [← DirTree.contents_eq_some, ready.secrets] at file
        cases file

theorem StageName.not_above {names : List String} (shape : StageName names) :
    names ≠ [] ∧ names ≠ ["secrets"] := by
  rcases shape with ⟨name, rfl, differ⟩ | ⟨name, rfl⟩
  · simp [differ]
  · simp

/-- A file is written beside those of the stage. -/
theorem writeFile_done {tree : DirTree (List UInt8)} {names : List String}
    (ready : StageReady location tree) (shape : StageName names)
    (parent : tree.node (location.stage ++ names).dropLast = some .directory)
    (bytes : List UInt8) :
    ∃ after, tree.write (location.stage ++ names) bytes = some after ∧
      StageReady location after := by
  have some_ : location.stage ++ names ≠ [] := by
    simp [RestorePlace.stage]
  have noDirectory : tree.node (location.stage ++ names) ≠ some .directory := by
    intro directory
    rcases ready.directories names directory with empty | secrets
    · exact shape.not_above.1 empty
    · exact shape.not_above.2 secrets
  obtain ⟨after, written⟩ := DirTree.write_exists some_ parent noDirectory bytes
  refine ⟨after, written, DirTree.directory_write written ready.stage, ?_, ?_⟩
  · intro others directory
    by_cases same : location.stage ++ others = location.stage ++ names
    · rw [same, DirTree.node_written written] at directory
      cases directory
    · rw [DirTree.write_apart written same] at directory
      exact ready.directories others directory
  · have apart : location.stage ++ ["secrets"] ≠ location.stage ++ names := by
      intro same
      exact shape.not_above.2 (List.append_cancel_left same).symm
    have kept := ready.secrets
    unfold DirTree.contents at kept ⊢
    rwa [DirTree.write_apart written apart]

/-- Each file of a payload with where it leads and what it holds. -/
abbrev StagedFiles : Type := List (BackupFile × List String × List UInt8)

/-- All files of a payload are staged, and stand where they lead. -/
theorem stageFiles_done {allowed : String} {placed : StagedFiles} {place : Nat}
    (ready : StageReady location world.tree)
    (fine : ∀ entry ∈ placed, Stageable tools allowed entry.1 entry.2.1 entry.2.2)
    (distinct : (placed.map (fun entry => entry.2.1)).Nodup) :
    ∃ after, stageFiles tools none allowed location.stage place (placed.map Prod.fst) world =
        (.ok (), after) ∧
      StageReady location after.tree ∧
      (∀ entry ∈ placed, after.tree.node (location.stage ++ entry.2.1) =
        some (.file entry.2.2)) ∧
      ∀ names content, names ∉ placed.map (fun entry => entry.2.1) →
        (after.tree.node (location.stage ++ names) = some (.file content) ↔
          world.tree.node (location.stage ++ names) = some (.file content)) := by
  induction placed generalizing place world with
  | nil => exact ⟨world, rfl, ready, by simp, fun _ _ _ => Iff.rfl⟩
  | cons entry rest ih =>
      obtain ⟨file, names, bytes⟩ := entry
      have this_ := fine (file, names, bytes) List.mem_cons_self
      rw [List.map_cons, List.nodup_cons] at distinct
      obtain ⟨opened, created, readyOpened, parent, sameFiles⟩ :=
        createParent_done ready this_.shape
      obtain ⟨filled, written, readyFilled⟩ :=
        writeFile_done readyOpened this_.shape parent bytes
      have located := this_.leads.locate location.stage
      let middle : RestoreWorld :=
        { tree := filled
          accessed := world.accessed ++ [.createDirs (location.stage ++ names).dropLast] ++
            [.write (location.stage ++ names)] }
      obtain ⟨after, done, readyAfter, there, others⟩ := @ih middle (place + 1) readyFilled
        (fun other listed => fine other (List.mem_cons_of_mem _ listed)) distinct.2
      refine ⟨after, ?_, readyAfter, ?_, ?_⟩
      · rw [List.map_cons, stageFiles]
        refine (run_bind (run_refuse (by simp [this_.valid]) _ _)).trans ?_
        refine (run_bind (ok_expect.mpr ⟨this_.decoded, rfl⟩)).trans ?_
        rw [located, this_.leads.opens]
        refine (run_bind (attempt_done (unstruck_none _) created)).trans ?_
        exact (run_bind (attempt_done (unstruck_none _) written)).trans done
      · intro other listed
        rcases List.mem_cons.mp listed with rfl | later
        · exact (others names bytes distinct.1).mpr (DirTree.node_written written)
        · exact there other later
      · intro other content absent
        rw [List.map_cons, List.mem_cons, not_or] at absent
        have apart : location.stage ++ other ≠ location.stage ++ names :=
          fun same => absent.1 (List.append_cancel_left same)
        rw [others other content absent.2]
        show filled.node _ = _ ↔ _
        rw [DirTree.write_apart written apart, sameFiles]

/-! ### The configuration -/

/-- A file in the stage is read. -/
theorem readContent_done {call : RestoreCall} {text : String} {bytes : List UInt8}
    (leads : LeadsTo text [text]) (ready : world.tree.node location.stage = some .directory)
    (there : world.tree.node (location.stage ++ [text]) = some (.file bytes)) :
    readContent none call location.stage text world =
      (.ok bytes, { world with
        accessed := world.accessed ++ [.read (location.stage ++ [text])] }) := by
  have walked : (walk world.tree (if UnixPath.isAbsolute text then [] else location.stage)
      (UnixPath.components text)).bind world.tree.contents = some bytes := by
    rw [leads.relative, if_neg Bool.false_ne_true, leads.components]
    simp [walk, DirTree.isDirectory_iff.mpr ready, DirTree.contents_eq_some.mpr there]
  unfold readContent
  simp only [Option.any_none, Bool.false_eq_true, if_false, walked, leads.opens, if_true,
    leads.locate]

/-- The configuration in the stage gets the name of its network. -/
theorem rewriteConfig_done {allowed : String} {text : List UInt8} {document named : δ}
    (leads : LeadsTo allowed [allowed]) (shape : StageName [allowed])
    (ready : StageReady location world.tree)
    (there : world.tree.node (location.stage ++ [allowed]) = some (.file text))
    (parsed : tools.toml.parse text = some document)
    (renamed : tools.toml.setNetworkName slug document = some named)
    (loads : (tools.toml.load "" (tools.toml.print named)).isSome = true) :
    ∃ after, rewriteConfig tools none allowed location.stage slug world = (.ok (), after) ∧
      after.tree.node (location.stage ++ [allowed]) = some (.file (tools.toml.print named)) ∧
      ∀ names content, names ≠ [allowed] →
        (after.tree.node (location.stage ++ names) = some (.file content) ↔
          world.tree.node (location.stage ++ names) = some (.file content)) := by
  obtain ⟨opened, created, readyOpened, parent, sameFiles⟩ := createParent_done ready shape
  obtain ⟨filled, written, readyFilled⟩ :=
    writeFile_done readyOpened shape parent (tools.toml.print named)
  have output := DirTree.node_written written
  let read : RestoreWorld :=
    { world with accessed := world.accessed ++ [.read (location.stage ++ [allowed])] }
  let stored : RestoreWorld :=
    { tree := filled
      accessed := read.accessed ++ [.createDirs (location.stage ++ [allowed]).dropLast] ++
        [.write (location.stage ++ [allowed])] }
  refine ⟨{ stored with
    accessed := stored.accessed ++ [.read (location.stage ++ [allowed])] }, ?_, output, ?_⟩
  · unfold rewriteConfig
    refine (run_bind (readContent_done leads ready.stage there)).trans ?_
    refine (run_bind (ok_expect.mpr ⟨parsed, rfl⟩)).trans ?_
    refine (run_bind (ok_expect.mpr ⟨renamed, rfl⟩)).trans ?_
    rw [leads.locate, leads.opens]
    have makes : createDirectories none .createConfigParent
        (location.stage ++ [allowed]).dropLast read = (.ok (),
          { tree := opened
            accessed := read.accessed ++ [.createDirs (location.stage ++ [allowed]).dropLast] }) :=
      attempt_done (unstruck_none _) created
    have writes : writeContent none .writeConfig true (location.stage ++ [allowed])
        (tools.toml.print named)
        { tree := opened
          accessed := read.accessed ++ [.createDirs (location.stage ++ [allowed]).dropLast] } =
        (.ok (), stored) :=
      attempt_done (unstruck_none _) written
    refine (run_bind makes).trans ?_
    refine (run_bind writes).trans ?_
    have again : readContent none .loadConfig location.stage allowed stored =
        (.ok (tools.toml.print named), { stored with
          accessed := stored.accessed ++ [.read (location.stage ++ [allowed])] }) :=
      readContent_done leads readyFilled.stage output
    refine (run_bind again).trans ?_
    refine run_refuse ?_ _ _
    rw [Option.isNone_eq_false_iff.mpr loads]
    exact Bool.false_ne_true
  · intro names content differ
    have apart : location.stage ++ names ≠ location.stage ++ [allowed] :=
      fun same => differ (List.append_cancel_left same)
    show filled.node _ = _ ↔ _
    rw [DirTree.write_apart written apart, sameFiles]

/-! ### The swap, where the name is new -/

/-- The stage takes the place of no target. -/
theorem swapIn_done (label : Names.isDnsLabel slug = true)
    (stage : world.tree.node location.stage = some .directory)
    (networks : world.tree.node location.networks = some .directory)
    (free : world.tree.node (location.target slug) = none)
    (noOld : world.tree.node location.old = none) :
    ∃ after, swapIn none location slug world = (.ok (), after) ∧
      ∀ names, after.tree.node (location.target slug ++ names) =
        world.tree.node (location.stage ++ names) := by
  obtain ⟨tree, moved⟩ := @DirTree.rename_exists _ world.tree location.stage
    (location.target slug) RestorePlace.stage_ne_nil (by rw [stage]; rfl) free
    (by rw [RestorePlace.target, List.dropLast_concat]; exact networks)
    (RestorePlace.apart_of_ne (RestorePlace.stage_ne_slug label))
  have stillNoOld : tree.node location.old = none := by
    have same : tree.node location.old = world.tree.node location.old :=
      DirTree.rename_apart moved (RestorePlace.apart_of_ne RestorePlace.stageName_ne_oldName)
        (RestorePlace.apart_of_ne (RestorePlace.old_ne_slug label).symm)
    exact same.trans noOld
  refine ⟨{ tree := tree
            accessed := world.accessed ++ [.rename location.stage (location.target slug)] },
    ?_, fun names => DirTree.rename_below moved names⟩
  unfold swapIn
  refine (run_bind (ifThere_absent free)).trans ?_
  refine (run_bind (onError_ok (moveDirectory_done (unstruck_none _) moved))).trans ?_
  exact ifThere_absent stillNoOld

/-! ### A restore into a new network -/

/-- Nothing is in the way: no file above the networks, no target, and none of the directories that
the restore makes for itself. -/
structure NewPlace (location : RestorePlace) (slug : String) (start : DirTree (List UInt8)) :
    Prop where
  clear : ∀ above, above <+: location.networks → start.contents above = none
  target : start.node (location.target slug) = none
  stage : start.node location.stage = none
  old : start.node location.old = none

/-- The empty stage. -/
structure EmptyStage (location : RestorePlace) (slug : String) (tree : DirTree (List UInt8)) :
    Prop where
  ready : StageReady location tree
  noFile : ∀ names content, tree.node (location.stage ++ names) ≠ some (.file content)
  networks : tree.node location.networks = some .directory
  target : tree.node (location.target slug) = none
  old : tree.node location.old = none

/-- The directories of the networks and of the stage are created. -/
theorem createStage_done {start : DirTree (List UInt8)} (label : Names.isDnsLabel slug = true)
    (new : NewPlace location slug start) :
    ∃ opened staged, start.createDirs location.networks = some opened ∧
      opened.node location.stage = none ∧
      opened.createDirs location.stage = some staged ∧ EmptyStage location slug staged := by
  obtain ⟨opened, made⟩ := DirTree.createDirs_exists new.clear
  have others : ∀ name, start.node (location.networks ++ [name]) = none →
      opened.node (location.networks ++ [name]) = none := by
    intro name absent
    have notAbove : ¬ location.networks ++ [name] <+: location.networks :=
      RestorePlace.not_above_networks List.prefix_rfl
    exact (DirTree.createDirs_apart made notAbove).trans absent
  have noStage := others _ new.stage
  have networks := DirTree.directory_created made List.prefix_rfl
  have clear : ∀ above, above <+: location.stage → opened.contents above = none := by
    intro above below
    rcases List.prefix_concat_iff.mp below with rfl | shorter
    · unfold DirTree.contents
      rw [noStage]
    · exact DirTree.no_file_above networks shorter
  obtain ⟨staged, created⟩ := DirTree.createDirs_exists clear
  have absent : ∀ names, names ≠ [] → staged.node (location.stage ++ names) = none := by
    intro names some_
    have notAbove : ¬ location.stage ++ names <+: location.stage := by
      intro above
      have length := above.length_le
      rw [List.length_append] at length
      exact some_ (List.length_eq_zero_iff.mp (by omega))
    exact (DirTree.createDirs_apart created notAbove).trans
      (DirTree.absent_below noStage (List.prefix_append _ _))
  have stage := DirTree.directory_created created List.prefix_rfl
  refine ⟨opened, staged, made, noStage, created, ⟨stage, ?_, ?_⟩, ?_,
    DirTree.directory_createDirs created networks, ?_, ?_⟩
  · intro names directory
    by_cases empty : names = []
    · exact .inl empty
    · rw [absent names empty] at directory
      cases directory
  · unfold DirTree.contents
    rw [absent ["secrets"] (by simp)]
  · intro names content file
    by_cases empty : names = []
    · rw [empty, List.append_nil, stage] at file
      cases file
    · rw [absent names empty] at file
      cases file
  · exact (DirTree.createDirs_apart created
      (RestorePlace.apart_of_ne (RestorePlace.stage_ne_slug label).symm)).trans
      (others _ new.target)
  · exact (DirTree.createDirs_apart created
      (RestorePlace.apart_of_ne RestorePlace.stageName_ne_oldName.symm)).trans
      (others _ new.old)

/-- What a payload has to be like to be restored. -/
structure Restorable (tools : BackupTools δ κ) (payload : BackupPayload) (placed : StagedFiles)
    (slug : String) (text : List UInt8) (named : δ) : Prop where
  files : payload.files = placed.map Prod.fst
  fine : ∀ entry ∈ placed,
    Stageable tools payload.preview.configFile entry.1 entry.2.1 entry.2.2
  distinct : (placed.map (fun entry => entry.2.1)).Nodup
  leads : LeadsTo payload.preview.configFile [payload.preview.configFile]
  shape : StageName [payload.preview.configFile]
  config : ∃ file, (file, [payload.preview.configFile], text) ∈ placed
  rewritten : ∃ document, tools.toml.parse text = some document ∧
    tools.toml.setNetworkName slug document = some named
  loads : (tools.toml.load "" (tools.toml.print named)).isSome = true

/-- The stage of a payload that can be restored. -/
theorem restoreToStage_done {payload : BackupPayload} {placed : StagedFiles} {text : List UInt8}
    {named : δ} (restorable : Restorable tools payload placed slug text named)
    (empty : EmptyStage location slug world.tree) :
    ∃ after, restoreToStage tools none payload location.stage slug world = (.ok (), after) ∧
      after.tree.node location.stage = some .directory ∧
      after.tree.node location.networks = some .directory ∧
      (∀ path, ¬ location.stage <+: path → ¬ path <+: location.networks →
        after.tree.node path = world.tree.node path) ∧
      after.tree.node (location.stage ++ [payload.preview.configFile]) =
        some (.file (tools.toml.print named)) ∧
      ∀ names content, names ≠ [payload.preview.configFile] →
        (after.tree.node (location.stage ++ names) = some (.file content) ↔
          ∃ entry ∈ placed, entry.2.1 = names ∧ entry.2.2 = content) := by
  obtain ⟨file, listed⟩ := restorable.config
  obtain ⟨document, parsed, renamed⟩ := restorable.rewritten
  obtain ⟨filled, staged, ready, there, others⟩ := @stageFiles_done δ κ tools location world
    payload.preview.configFile placed 0 empty.ready restorable.fine restorable.distinct
  obtain ⟨after, rewritten, config, kept⟩ := rewriteConfig_done restorable.leads restorable.shape
    ready (there _ listed) parsed renamed restorable.loads
  rw [← restorable.files] at staged
  have done : restoreToStage tools none payload location.stage slug world = (.ok (), after) :=
    (run_bind staged).trans rewritten
  have below : location.stage <+:
      UnixPath.locate location.stage payload.preview.configFile := by
    rw [restorable.leads.locate]
    exact List.prefix_append _ _
  have moves : Staging location slug world
      (restoreToStage tools none payload location.stage slug world).2 :=
    moves_restoreToStage below world
  rw [done] at moves
  refine ⟨after, done, moves.files.directories _ empty.ready.stage,
    moves.files.directories _ empty.networks, moves.files.outside, config, ?_⟩
  intro names content differ
  rw [kept names content differ]
  by_cases mine : names ∈ placed.map (fun entry => entry.2.1)
  · obtain ⟨entry, listed, rfl⟩ := List.mem_map.mp mine
    rw [there entry listed]
    constructor
    · intro same
      cases same
      exact ⟨entry, listed, rfl, rfl⟩
    · intro found
      obtain ⟨other, listedOther, sameNames, rfl⟩ := found
      rw [List.inj_on_of_nodup_map restorable.distinct listedOther listed sameNames]
  · rw [others names content mine]
    constructor
    · intro file
      exact absurd file (empty.noFile names content)
    · intro found
      obtain ⟨entry, listed, rfl, _⟩ := found
      exact absurd (List.mem_map.mpr ⟨entry, listed, rfl⟩) mine

/-- A payload that can be restored is restored. -/
theorem restorePayload_done {start : DirTree (List UInt8)} {payload : BackupPayload}
    {placed : StagedFiles} {text : List UInt8} {named : δ}
    (label : Names.isDnsLabel slug = true) (new : NewPlace location slug start)
    (restorable : Restorable tools payload placed slug text named) :
    ∃ after, restorePayload tools none location payload slug .new { tree := start } =
        (.ok (payload.preview, location.target slug ++ [payload.preview.configFile]), after) ∧
      after.tree.node (location.target slug ++ [payload.preview.configFile]) =
        some (.file (tools.toml.print named)) ∧
      ∀ names content, names ≠ [payload.preview.configFile] →
        (after.tree.node (location.target slug ++ names) = some (.file content) ↔
          ∃ entry ∈ placed, entry.2.1 = names ∧ entry.2.2 = content) := by
  obtain ⟨opened, staged, made, noStage, created, empty⟩ := createStage_done label new
  let first : RestoreWorld := { tree := opened, accessed := [.createDirs location.networks] }
  let second : RestoreWorld :=
    { tree := staged, accessed := first.accessed ++ [.createDirs location.stage] }
  obtain ⟨filled, fills, stage, networks, outside, config, others⟩ :=
    @restoreToStage_done δ κ tools location slug second payload placed text named restorable empty
  have apart : ∀ name, location.networks ++ [name] ≠ location.stage →
      filled.tree.node (location.networks ++ [name]) =
        staged.node (location.networks ++ [name]) := by
    intro name differ
    refine outside _ (fun above => ?_) (RestorePlace.not_above_networks List.prefix_rfl)
    have same := above.eq_of_length (by simp [RestorePlace.stage])
    exact differ same.symm
  have free : filled.tree.node (location.target slug) = none := by
    refine (apart slug (fun same => ?_)).trans empty.target
    exact RestorePlace.stage_ne_slug label (List.cons.inj (List.append_cancel_left same)).1.symm
  have noOld : filled.tree.node location.old = none := by
    refine (apart _ (fun same => ?_)).trans empty.old
    exact RestorePlace.stageName_ne_oldName
      (List.cons.inj (List.append_cancel_left same)).1.symm
  obtain ⟨after, swaps, moved⟩ := swapIn_done label stage networks free noOld
  refine ⟨after, ?_, (moved _).trans config, fun names content differ => ?_⟩
  · have makes : createDirectories none .createNetworks location.networks { tree := start } =
        (.ok (), first) := attempt_done (unstruck_none _) made
    have stages : createDirectories none .createStage location.stage first = (.ok (), second) :=
      attempt_done (unstruck_none _) created
    have noTarget : (start.node (location.target slug)).isSome = false := by
      rw [new.target]
      rfl
    unfold restorePayload
    refine (run_bind (show pathExists (location.target slug) { tree := start } =
      (.ok false, { tree := start }) by rw [pathExists, query, noTarget])).trans ?_
    refine (run_bind (run_refuse (by simp) _ _)).trans ?_
    refine (run_bind rfl).trans ?_
    refine (run_bind rfl).trans ?_
    refine (run_bind (run_refuse (by simp) _ _)).trans ?_
    refine (run_bind makes).trans ?_
    refine (run_bind (ifThere_absent noStage)).trans ?_
    refine (run_bind stages).trans ?_
    refine (run_bind (onError_ok fills)).trans ?_
    refine (run_bind swaps).trans ?_
    rw [restorable.leads.locate]
    rfl
  · rw [moved names]
    exact others names content differ

end

/-! ### What is collected -/

section

variable {δ κ : Type} {tools : BackupTools δ κ} {source : BackupSource} {configPath : String}
  {includeMemos : Bool} {payload : BackupPayload}

/-- The PSK files of a backup, with where they lead and what they hold. -/
def pskStaged (tools : BackupTools δ κ) (source : BackupSource) :
    Nat → List (Option String) → StagedFiles
  | _, [] => []
  | index, none :: rest => pskStaged tools source (index + 1) rest
  | index, some path :: rest =>
      let bytes := (source.read path).getD []
      ({ path := pskName index, contentBase64 := tools.encode bytes, secret := true },
        ["secrets", pskLeaf index], bytes) :: pskStaged tools source (index + 1) rest

theorem mem_pskStaged {start : Nat} {paths : List (Option String)}
    {entry : BackupFile × List String × List UInt8} :
    entry ∈ pskStaged tools source start paths ↔
      ∃ index path, paths[index]? = some (some path) ∧
        entry = ({ path := pskName (start + index)
                   contentBase64 := tools.encode ((source.read path).getD []), secret := true },
          ["secrets", pskLeaf (start + index)], (source.read path).getD []) := by
  induction paths generalizing start with
  | nil => simp [pskStaged]
  | cons first rest ih =>
      have later : (∃ index path, (first :: rest)[index + 1]? = some (some path) ∧
          entry = ({ path := pskName (start + (index + 1))
                     contentBase64 := tools.encode ((source.read path).getD []), secret := true },
            ["secrets", pskLeaf (start + (index + 1))], (source.read path).getD [])) ↔
          entry ∈ pskStaged tools source (start + 1) rest := by
        rw [ih]
        simp only [List.getElem?_cons_succ, Nat.add_assoc, Nat.add_comm 1]
      cases first with
      | none =>
          rw [pskStaged, ← later]
          constructor
          · intro found
            obtain ⟨index, found⟩ := found
            exact ⟨index + 1, found⟩
          · intro found
            obtain ⟨index, path, there, same⟩ := found
            cases index with
            | zero => cases there
            | succ index => exact ⟨index, path, there, same⟩
      | some path =>
          rw [pskStaged, List.mem_cons, ← later]
          constructor
          · intro found
            rcases found with rfl | ⟨index, found⟩
            · exact ⟨0, path, rfl, rfl⟩
            · exact ⟨index + 1, found⟩
          · intro found
            obtain ⟨index, other, there, same⟩ := found
            cases index with
            | zero =>
                cases there
                exact .inl same
            | succ index => exact .inr ⟨index, other, there, same⟩

theorem pskLeaf_injective {one two : Nat} (same : pskLeaf one = pskLeaf two) : one = two := by
  have chars := congrArg String.toList same
  rw [pskLeaf_toList, pskLeaf_toList] at chars
  have digits := List.append_cancel_left (List.append_cancel_right chars)
  exact repr_injective (String.toList_injective digits)

/-- Each PSK has its own file. -/
theorem pskStaged_nodup (start : Nat) (paths : List (Option String)) :
    ((pskStaged tools source start paths).map (fun entry => entry.2.1)).Nodup := by
  induction paths generalizing start with
  | nil => exact List.nodup_nil
  | cons first rest ih =>
      cases first with
      | none => exact ih (start + 1)
      | some path =>
          rw [pskStaged, List.map_cons, List.nodup_cons]
          refine ⟨fun again => ?_, ih (start + 1)⟩
          obtain ⟨entry, listed, same⟩ := List.mem_map.mp again
          obtain ⟨index, other, _, rfl⟩ := mem_pskStaged.mp listed
          have leaves : pskLeaf (start + 1 + index) = pskLeaf start := by simpa using same
          have equal := pskLeaf_injective leaves
          omega

theorem addFile_ok {logical path : String} {secret : Bool} {file : BackupFile}
    (added : addFile tools source logical path secret = .ok file) :
    ∃ bytes, source.read path = some bytes ∧
      file = { path := logical, contentBase64 := tools.encode bytes, secret := secret } := by
  unfold addFile at added
  obtain ⟨bytes, read, added⟩ := bind_ok.mp added
  exact ⟨bytes, orFail_ok.mp read, (pure_ok.mp added).symm⟩

/-- Every PSK is read, and its peer has a table. -/
theorem addPresharedKeys_ok {tables : Option Nat} {start : Nat} {paths : List (Option String)}
    {files : List BackupFile}
    (added : addPresharedKeys tools source tables start paths = .ok files) :
    files = (pskStaged tools source start paths).map Prod.fst ∧
      ∀ index path, paths[index]? = some (some path) →
        (source.read path).isSome = true ∧
          ∃ count, tables = some count ∧ start + index < count := by
  induction paths generalizing start files with
  | nil =>
      cases added
      exact ⟨rfl, by simp⟩
  | cons first rest ih =>
      cases first with
      | none =>
          obtain ⟨same, readable⟩ := ih added
          refine ⟨same, fun index path there => ?_⟩
          cases index with
          | zero => cases there
          | succ index =>
              have found := readable index path there
              rwa [Nat.add_right_comm] at found
      | some own =>
          rw [addPresharedKeys] at added
          obtain ⟨file, read, added⟩ := bind_ok.mp added
          obtain ⟨⟨⟩, table, added⟩ := bind_ok.mp added
          obtain ⟨others, later, added⟩ := bind_ok.mp added
          obtain ⟨bytes, content, rfl⟩ := addFile_ok read
          obtain ⟨same, readable⟩ := ih later
          cases pure_ok.mp added
          refine ⟨?_, fun index path there => ?_⟩
          · rw [pskStaged, List.map_cons, content, same]
            rfl
          · cases index with
            | zero =>
                cases there
                have enough := refuseIf_ok.mp table
                cases tables with
                | none => simp at enough
                | some count => exact ⟨by rw [content]; rfl, count, rfl, by simpa using enough⟩
            | succ index =>
                have found := readable index path there
                rwa [Nat.add_right_comm] at found

end

/-! ### The configuration in a backup -/

section

variable {δ : Type} {toml : TomlTools δ} {slug : String}

/-- The same configuration under the label of another network. -/
def FileConfig.named (slug : String) (file : FileConfig) : FileConfig :=
  { file with
    config := { file.config with
      interface := { file.config.interface with networkName := some slug } } }

/-- What backups rely on of toml and toml_edit: the text of a document parses, it reads as the text
that the document came from, and an edit changes its one value. -/
structure TomlKeeps (toml : TomlTools δ) (slug : String) : Prop where
  unedited : ∀ text document, toml.parse text = some document →
    toml.fromStr (toml.print document) = toml.fromStr text
  printed : ∀ document, (toml.parse (toml.print document)).isSome = true
  privateKey : ∀ document file edited, toml.fromStr (toml.print document) = some file →
    toml.setPrivateKeyFile PRIVATE_NAME document = some edited →
    toml.fromStr (toml.print edited) = some { file with privateKeyFile := PRIVATE_NAME } ∧
      toml.peerTables edited = toml.peerTables document
  tables : ∀ document file count, toml.fromStr (toml.print document) = some file →
    toml.peerTables document = some count → file.presharedKeyFiles.length = count
  presharedKey : ∀ document file count index, toml.fromStr (toml.print document) = some file →
    toml.peerTables document = some count → index < count →
    toml.fromStr (toml.print (toml.setPresharedKeyFile index (pskName index) document)) =
        some { file with
          presharedKeyFiles := file.presharedKeyFiles.set index (some (pskName index)) } ∧
      toml.peerTables (toml.setPresharedKeyFile index (pskName index) document) = some count
  networkName : ∀ document file, toml.fromStr (toml.print document) = some file →
    ∃ named, toml.setNetworkName slug document = some named ∧
      toml.fromStr (toml.print named) = some (file.named slug)

/-- The paths of the PSKs in a backup. -/
def relocatedNames : Nat → List (Option String) → List (Option String)
  | _, [] => []
  | index, path :: rest => path.map (fun _ => pskName index) :: relocatedNames (index + 1) rest

theorem relocatedNames_getElem? (start : Nat) (paths : List (Option String)) (index : Nat) :
    (relocatedNames start paths)[index]? =
      paths[index]?.map (Option.map (fun _ => pskName (start + index))) := by
  induction paths generalizing start index with
  | nil => rfl
  | cons path rest ih =>
      cases index with
      | zero => rfl
      | succ index =>
          rw [relocatedNames, List.getElem?_cons_succ, List.getElem?_cons_succ, ih,
            Nat.add_right_comm, Nat.add_assoc]

/-- Without a PSK nothing is relocated. -/
theorem relocatedNames_none (start : Nat) {paths : List (Option String)}
    (without : ∀ (index : Nat) path, paths[index]? ≠ some (some path)) :
    relocatedNames start paths = paths := by
  refine List.ext_getElem? (fun index => ?_)
  rw [relocatedNames_getElem?]
  cases found : paths[index]? with
  | none => rfl
  | some path =>
      cases path with
      | none => rfl
      | some path => exact absurd found (without index path)

/-- The document is renamed peer by peer; those before `index` are done. -/
theorem renamePresharedKeys_reads (keeps : TomlKeeps toml slug) {baseDir : String} {document : δ}
    {file : FileConfig} {count : Nat} {before paths : List (Option String)}
    (reads : toml.fromStr (toml.print document) = some file)
    (tables : toml.peerTables document = some count)
    (names : file.presharedKeyFiles = before ++ paths) :
    toml.fromStr (toml.print (renamePresharedKeys toml before.length
        (paths.map (Option.map (resolvePath baseDir))) document)) =
      some { file with presharedKeyFiles := before ++ relocatedNames before.length paths } := by
  induction paths generalizing before document file with
  | nil =>
      rw [List.map_nil, renamePresharedKeys, relocatedNames, ← names]
      exact reads
  | cons path rest ih =>
      cases path with
      | none =>
          have next := @ih document file (before ++ [none]) reads tables (by simpa using names)
          simpa [renamePresharedKeys, relocatedNames] using next
      | some path =>
          have enough : before.length < count := by
            have length := keeps.tables document file count reads tables
            rw [names, List.length_append, List.length_cons] at length
            omega
          obtain ⟨renamed, sameTables⟩ :=
            keeps.presharedKey document file count before.length reads tables enough
          have set : file.presharedKeyFiles.set before.length (some (pskName before.length)) =
              (before ++ [some (pskName before.length)]) ++ rest := by
            rw [names, List.set_append_right _ _ (Nat.le_refl _), Nat.sub_self, List.set_cons_zero,
              List.append_cons]
          have next := @ih _ _ (before ++ [some (pskName before.length)]) renamed sameTables set
          simpa [renamePresharedKeys, relocatedNames] using next

/-- What the document of a backup reads as. -/
theorem relocate_reads (keeps : TomlKeeps toml slug) {baseDir : String} {document relocated : δ}
    {file : FileConfig} (reads : toml.fromStr (toml.print document) = some file)
    (done : relocate toml (file.resolve baseDir) document = .ok relocated)
    (covered : ∀ (index : Nat) path, file.presharedKeyFiles[index]? = some (some path) →
      (toml.peerTables document).isSome = true) :
    toml.fromStr (toml.print relocated) = some { file with
      privateKeyFile := PRIVATE_NAME
      presharedKeyFiles := relocatedNames 0 file.presharedKeyFiles } := by
  unfold relocate at done
  split at done
  · cases done
  · rename_i edited renamed
    obtain ⟨keyed, sameTables⟩ := keeps.privateKey document file edited reads renamed
    cases done
    cases tables : toml.peerTables edited with
    | none =>
        rw [← sameTables, tables] at covered
        rw [relocatedNames_none 0 (fun index path found => by cases covered index path found)]
        exact keyed
    | some count =>
        exact @renamePresharedKeys_reads δ toml slug keeps baseDir edited _ count []
          file.presharedKeyFiles keyed tables rfl

end

/-! ### The files in a backup -/

section

variable {δ κ : Type} {tools : BackupTools δ κ} {source : BackupSource} {configPath : String}
  {includeMemos : Bool} {payload : BackupPayload}

/-- The memos that a backup is to hold. -/
def memosKept (source : BackupSource) (role : BackupRole) (includeMemos : Bool)
    (configPath : String) : Option (List UInt8) :=
  let memosPath := UnixPath.withExtension configPath "memos.db"
  if role = .host ∧ includeMemos = true ∧ (source.read memosPath).isSome then
    source.snapshot memosPath
  else none

/-- A file that a backup may have, with where it leads and what it holds. -/
def optionalStaged (tools : BackupTools δ κ) (name : String) (bytes : Option (List UInt8)) :
    StagedFiles :=
  (bytes.map (fun bytes =>
    ({ path := name, contentBase64 := tools.encode bytes, secret := false }, [name], bytes))).toList

theorem addGroups_eq {configFile : String} :
    addGroups tools source configPath configFile =
      (optionalStaged tools (UnixPath.withExtension configFile "groups.json")
        (source.read (UnixPath.withExtension configPath "groups.json"))).map Prod.fst := by
  unfold addGroups optionalStaged
  cases source.read (UnixPath.withExtension configPath "groups.json") <;> rfl

theorem addMemos_ok {role : BackupRole} {configFile : String} {files : List BackupFile}
    (added : addMemos tools source role includeMemos configPath configFile = .ok files) :
    files = (optionalStaged tools (UnixPath.withExtension configFile "memos.db")
      (memosKept source role includeMemos configPath)).map Prod.fst := by
  unfold addMemos at added
  unfold memosKept
  dsimp only at added ⊢
  split at added
  · rename_i wanted
    rw [if_pos wanted]
    obtain ⟨bytes, taken, added⟩ := bind_ok.mp added
    rw [orFail_ok.mp taken]
    exact (pure_ok.mp added).symm
  · rename_i unwanted
    rw [if_neg unwanted]
    cases added
    rfl

/-- All files of a backup. -/
def placedFiles (tools : BackupTools δ κ) (source : BackupSource) (role : BackupRole)
    (key config : List UInt8) (paths : List (Option String)) (groups memos : Option (List UInt8)) :
    StagedFiles :=
  ({ path := PRIVATE_NAME, contentBase64 := tools.encode key, secret := true },
      ["secrets", "private.key"], key) ::
    pskStaged tools source 0 paths ++
    ({ path := role.configFile, contentBase64 := tools.encode config, secret := true },
      [role.configFile], config) ::
    optionalStaged tools (UnixPath.withExtension role.configFile "groups.json") groups ++
    optionalStaged tools (UnixPath.withExtension role.configFile "memos.db") memos

/-- What `create` has read and collected. -/
structure Collected (tools : BackupTools δ κ) (source : BackupSource) (configPath : String)
    (includeMemos : Bool) (payload : BackupPayload) (role : BackupRole) (text : List UInt8)
    (file : FileConfig) (document relocated : δ) (key : List UInt8) : Prop where
  read : source.read configPath = some text
  reads : tools.toml.fromStr text = some file
  valid : file.config.validate = .ok ()
  chosen : backupRole configPath = .ok role
  parsed : tools.toml.parse text = some document
  keyRead : source.read (resolvePath (UnixPath.parent configPath) file.privateKeyFile) = some key
  moved : relocate tools.toml (file.resolve (UnixPath.parent configPath)) document =
    .ok relocated
  readable : ∀ (index : Nat) path, file.presharedKeyFiles[index]? = some (some path) →
    (source.read (resolvePath (UnixPath.parent configPath) path)).isSome = true ∧
      (tools.toml.peerTables document).isSome = true
  configFile : payload.preview.configFile = role.configFile
  files : payload.files = (placedFiles tools source role key (tools.toml.print relocated)
    (file.resolve (UnixPath.parent configPath)).presharedKeyFiles
    (source.read (UnixPath.withExtension configPath "groups.json"))
    (memosKept source role includeMemos configPath)).map Prod.fst

theorem load_ok {toml : TomlTools δ} {baseDir : String} {text : List UInt8} {loaded : FileConfig} :
    toml.load baseDir text = some loaded ↔
      ∃ file, toml.fromStr text = some file ∧ file.config.validate = .ok () ∧
        file.resolve baseDir = loaded := by
  unfold TomlTools.load
  cases toml.fromStr text with
  | none => simp
  | some file =>
      cases checked : file.config.validate with
      | error message => simp [checked]
      | ok => simp [checked]

theorem collect_ok (collected : collect tools source configPath includeMemos = .ok payload) :
    ∃ role text file document relocated key,
      Collected tools source configPath includeMemos payload role text file document relocated
        key := by
  unfold collect at collected
  obtain ⟨text, read, collected⟩ := bind_ok.mp collected
  obtain ⟨loaded, load, collected⟩ := bind_ok.mp collected
  obtain ⟨role, named, collected⟩ := bind_ok.mp collected
  obtain ⟨document, parsed, collected⟩ := bind_ok.mp collected
  obtain ⟨keyFile, keyAdded, collected⟩ := bind_ok.mp collected
  obtain ⟨relocated, moved, collected⟩ := bind_ok.mp collected
  obtain ⟨presharedKeys, pskAdded, collected⟩ := bind_ok.mp collected
  obtain ⟨memos, memosAdded, collected⟩ := bind_ok.mp collected
  obtain ⟨file, reads, valid, rfl⟩ := load_ok.mp (orFail_ok.mp load)
  obtain ⟨key, keyRead, rfl⟩ := addFile_ok keyAdded
  obtain ⟨pskFiles, readable⟩ := addPresharedKeys_ok pskAdded
  cases pure_ok.mp collected
  refine ⟨role, text, file, document, relocated, key, ?_⟩
  constructor
  · exact orFail_ok.mp read
  · exact reads
  · exact valid
  · exact named
  · exact orFail_ok.mp parsed
  · exact keyRead
  · exact moved
  · intro index path there
    have resolved : (file.resolve (UnixPath.parent configPath)).presharedKeyFiles[index]? =
        some (some (resolvePath (UnixPath.parent configPath) path)) := by
      rw [FileConfig.resolve, List.getElem?_map, there]
      rfl
    obtain ⟨found, count, tables, _⟩ := readable index _ resolved
    exact ⟨found, by rw [tables]; rfl⟩
  · rfl
  · rw [placedFiles, pskFiles, addGroups_eq, addMemos_ok memosAdded]
    simp only [List.map_append, List.map_cons, List.cons_append]

end

/-! ### The names of the files -/

section

variable {δ κ : Type} {tools : BackupTools δ κ} {source : BackupSource} {role : BackupRole}
  {key config : List UInt8} {paths : List (Option String)} {groups memos : Option (List UInt8)}
  {entry : BackupFile × List String × List UInt8}

def BackupRole.groupsFile (role : BackupRole) : String :=
  UnixPath.withExtension role.configFile "groups.json"

def BackupRole.memosFile (role : BackupRole) : String :=
  UnixPath.withExtension role.configFile "memos.db"

/-- A file that stands directly in a backup. -/
structure TopName (allowed name : String) : Prop where
  valid : validBackupName allowed name = true
  leads : LeadsTo name [name]
  shape : StageName [name]

theorem topName_role {name : String}
    (listed : name ∈ [role.configFile, role.groupsFile, role.memosFile]) :
    TopName role.configFile name := by
  have each : ∀ name ∈ [role.configFile, role.groupsFile, role.memosFile],
      validBackupName role.configFile name = true ∧ UnixPath.isAbsolute name = false ∧
        UnixPath.components name = [.name name] ∧ UnixPath.opensFile name = true ∧
        name ≠ "secrets" := by
    cases role <;> decide
  obtain ⟨valid, relative, components, opens, differ⟩ := each name listed
  exact ⟨valid, ⟨relative, components, opens⟩, .inl ⟨name, rfl, differ⟩⟩

theorem roleFiles_nodup (role : BackupRole) :
    [role.configFile, role.groupsFile, role.memosFile].Nodup := by
  cases role <;> decide

theorem leadsTo_private : LeadsTo PRIVATE_NAME ["secrets", "private.key"] where
  relative := by decide
  components := by decide
  opens := by decide

theorem mem_optionalStaged {name : String} {bytes : Option (List UInt8)} :
    entry ∈ optionalStaged tools name bytes ↔ ∃ content, bytes = some content ∧
      entry = ({ path := name, contentBase64 := tools.encode content, secret := false },
        [name], content) := by
  cases bytes with
  | none => simp [optionalStaged]
  | some content => simp [optionalStaged]

theorem mem_placedFiles :
    entry ∈ placedFiles tools source role key config paths groups memos ↔
      entry = ({ path := PRIVATE_NAME, contentBase64 := tools.encode key, secret := true },
        ["secrets", "private.key"], key) ∨
      entry ∈ pskStaged tools source 0 paths ∨
      entry = ({ path := role.configFile, contentBase64 := tools.encode config, secret := true },
        [role.configFile], config) ∨
      entry ∈ optionalStaged tools role.groupsFile groups ∨
      entry ∈ optionalStaged tools role.memosFile memos := by
  simp only [placedFiles, BackupRole.groupsFile, BackupRole.memosFile, List.mem_append,
    List.mem_cons, List.cons_append, or_assoc]

/-- Every file of a backup is accepted by a restore. -/
theorem placedFiles_fine (base64 : ∀ bytes, tools.decode (tools.encode bytes) = some bytes)
    (listed : entry ∈ placedFiles tools source role key config paths groups memos) :
    Stageable tools role.configFile entry.1 entry.2.1 entry.2.2 := by
  have top : ∀ name content secret, name ∈ [role.configFile, role.groupsFile, role.memosFile] →
      Stageable tools role.configFile
        { path := name, contentBase64 := tools.encode content, secret := secret } [name]
        content := by
    intro name content secret own
    have fine := topName_role own
    exact ⟨fine.valid, fine.leads, fine.shape, base64 content⟩
  rcases mem_placedFiles.mp listed with rfl | psk | rfl | group | memo
  · have valid : validBackupName role.configFile PRIVATE_NAME = true := by
      cases role <;> decide
    exact ⟨valid, leadsTo_private, .inr ⟨_, rfl⟩, base64 key⟩
  · obtain ⟨index, path, _, rfl⟩ := mem_pskStaged.mp psk
    exact ⟨validBackupName_psk _ _, leadsTo_pskName _, .inr ⟨_, rfl⟩, base64 _⟩
  · exact top _ _ _ (by simp)
  · obtain ⟨content, _, rfl⟩ := mem_optionalStaged.mp group
    exact top _ _ _ (by simp)
  · obtain ⟨content, _, rfl⟩ := mem_optionalStaged.mp memo
    exact top _ _ _ (by simp)

theorem pskLeaf_ne_private (index : Nat) : pskLeaf index ≠ "private.key" := by
  intro same
  have chars := congrArg String.toList same
  rw [pskLeaf_toList] at chars
  have second := congrArg (fun chars => chars[1]?) chars
  simp at second

/-- No two files of a backup lead to one place. -/
theorem placedFiles_nodup :
    ((placedFiles tools source role key config paths groups memos).map
      (fun entry => entry.2.1)).Nodup := by
  have tops : (([role.configFile] :: (groups.map (fun _ => [role.groupsFile])).toList ++
      (memos.map (fun _ => [role.memosFile])).toList)).Nodup := by
    have differ := roleFiles_nodup role
    simp only [List.nodup_cons, List.mem_cons, List.not_mem_nil, or_false, not_or] at differ
    cases groups <;> cases memos <;> simp [differ]
  have optional : ∀ name (bytes : Option (List UInt8)),
      (optionalStaged tools name bytes).map (fun entry => entry.2.1) =
        (bytes.map (fun _ => [name])).toList := by
    intro name bytes
    cases bytes <;> rfl
  have split : (placedFiles tools source role key config paths groups memos).map
      (fun entry => entry.2.1) = (["secrets", "private.key"] ::
        (pskStaged tools source 0 paths).map (fun entry => entry.2.1)) ++
      ([role.configFile] :: (groups.map (fun _ => [role.groupsFile])).toList ++
        (memos.map (fun _ => [role.memosFile])).toList) := by
    rw [placedFiles]
    simp only [List.map_append, List.map_cons, List.cons_append, List.append_assoc, optional]
    rfl
  rw [split]
  refine List.Nodup.append (List.nodup_cons.mpr ⟨?_, pskStaged_nodup 0 paths⟩) tops ?_
  · intro again
    obtain ⟨other, psk, same⟩ := List.mem_map.mp again
    obtain ⟨index, path, _, rfl⟩ := mem_pskStaged.mp psk
    exact pskLeaf_ne_private _ (by simpa using same)
  · -- two names against one
    intro names secret top
    have two : names.length = 2 := by
      rcases List.mem_cons.mp secret with rfl | psk
      · rfl
      · obtain ⟨other, staged, rfl⟩ := List.mem_map.mp psk
        obtain ⟨index, path, _, rfl⟩ := mem_pskStaged.mp staged
        rfl
    have one : names.length = 1 := by
      rcases List.mem_append.mp top with first | memo
      · rcases List.mem_cons.mp first with rfl | group
        · rfl
        · cases groups with
          | none => cases group
          | some bytes =>
              rw [List.mem_singleton.mp group]
              rfl
      · cases memos with
        | none => cases memo
        | some bytes =>
            rw [List.mem_singleton.mp memo]
            rfl
    omega

end

/-! ### The round trip -/

section

variable {δ κ : Type} {tools : BackupTools δ κ} {source : BackupSource} {configPath slug : String}
  {includeMemos : Bool} {payload : BackupPayload} {role : BackupRole} {text key : List UInt8}
  {file : FileConfig} {document relocated : δ} {location : RestorePlace}
  {start : DirTree (List UInt8)}

/-- What was collected can be restored. -/
theorem Collected.restorable
    (collected : Collected tools source configPath includeMemos payload role text file document
      relocated key)
    (keeps : TomlKeeps tools.toml slug)
    (base64 : ∀ bytes, tools.decode (tools.encode bytes) = some bytes)
    (label : Names.isDnsLabel slug = true) :
    ∃ named, Restorable tools payload (placedFiles tools source role key
        (tools.toml.print relocated)
        (file.resolve (UnixPath.parent configPath)).presharedKeyFiles
        (source.read (UnixPath.withExtension configPath "groups.json"))
        (memosKept source role includeMemos configPath)) slug (tools.toml.print relocated) named ∧
      tools.toml.fromStr (tools.toml.print named) = some (({ file with
        privateKeyFile := PRIVATE_NAME
        presharedKeyFiles := relocatedNames 0 file.presharedKeyFiles } : FileConfig).named
          slug) := by
  have reads := (keeps.unedited text document collected.parsed).trans collected.reads
  have moved := relocate_reads keeps reads collected.moved
    (fun index path there => (collected.readable index path there).2)
  obtain ⟨again, parsed⟩ := Option.isSome_iff_exists.mp (keeps.printed relocated)
  have readsAgain := (keeps.unedited _ again parsed).trans moved
  obtain ⟨named, renamed, readsNamed⟩ := keeps.networkName again _ readsAgain
  have top : TopName role.configFile role.configFile := topName_role (by simp)
  refine ⟨named, ⟨collected.files, ?_, placedFiles_nodup, ?_, ?_, ?_, ⟨again, parsed, renamed⟩, ?_⟩,
    readsNamed⟩
  · intro entry listed
    rw [collected.configFile]
    exact placedFiles_fine base64 listed
  · rw [collected.configFile]
    exact top.leads
  · rw [collected.configFile]
    exact top.shape
  · rw [collected.configFile]
    exact ⟨_, mem_placedFiles.mpr (.inr (.inr (.inl rfl)))⟩
  · refine Option.isSome_iff_exists.mpr ⟨_, load_ok.mpr ⟨_, readsNamed, ?_, rfl⟩⟩
    exact Config.validate_networkName collected.valid label

/-- The network of a backup in the directory that it was restored to: the configuration differs in
the label of the network and the paths of the keys, and the files hold what they held. -/
structure RestoredNetwork (tools : BackupTools δ κ) (source : BackupSource) (configPath : String)
    (includeMemos : Bool) (slug : String) (target : Path) (tree : DirTree (List UInt8))
    (role : BackupRole) (original restored : FileConfig) : Prop where
  chosen : backupRole configPath = .ok role
  before : (source.read configPath).bind tools.toml.fromStr = some original
  after : (tree.contents (target ++ [role.configFile])).bind tools.toml.fromStr = some restored
  config : restored.config = (original.named slug).config
  key : tree.contents (UnixPath.locate target restored.privateKeyFile) =
    source.read (resolvePath (UnixPath.parent configPath) original.privateKeyFile)
  /-- Peer by peer, none for a peer without a PSK. -/
  presharedKeys : restored.presharedKeyFiles.map
      (Option.map (fun path => tree.contents (UnixPath.locate target path))) =
    original.presharedKeyFiles.map
      (Option.map (fun path => source.read (resolvePath (UnixPath.parent configPath) path)))
  groups : tree.contents (target ++ [role.groupsFile]) =
    source.read (UnixPath.withExtension configPath "groups.json")
  memos : tree.contents (target ++ [role.memosFile]) =
    memosKept source role includeMemos configPath

/-- A place that an entry leads to has what the entry holds. -/
theorem contents_placed {tree : DirTree (List UInt8)} {target : Path} {placed : StagedFiles}
    {allowed : String} {entry : BackupFile × List String × List UInt8}
    (there : ∀ names content, names ≠ [allowed] →
      (tree.node (target ++ names) = some (.file content) ↔
        ∃ entry ∈ placed, entry.2.1 = names ∧ entry.2.2 = content))
    (listed : entry ∈ placed) (other : entry.2.1 ≠ [allowed]) :
    tree.contents (target ++ entry.2.1) = some entry.2.2 :=
  DirTree.contents_eq_some.mpr ((there entry.2.1 entry.2.2 other).mpr ⟨entry, listed, rfl, rfl⟩)

/-- A file that a backup may have is there with what it holds, or not at all. -/
theorem contents_optional {tree : DirTree (List UInt8)} {target : Path} {placed : StagedFiles}
    {allowed name : String} {bytes : Option (List UInt8)} (other : name ≠ allowed)
    (there : ∀ names content, names ≠ [allowed] →
      (tree.node (target ++ names) = some (.file content) ↔
        ∃ entry ∈ placed, entry.2.1 = names ∧ entry.2.2 = content))
    (only : ∀ entry ∈ placed, entry.2.1 = [name] → entry ∈ optionalStaged tools name bytes)
    (some_ : ∀ entry ∈ optionalStaged tools name bytes, entry ∈ placed) :
    tree.contents (target ++ [name]) = bytes := by
  refine Option.ext (fun content => ?_)
  rw [DirTree.contents_eq_some, there [name] content (by simpa using other)]
  constructor
  · intro found
    obtain ⟨entry, listed, named, rfl⟩ := found
    obtain ⟨content, same, rfl⟩ := mem_optionalStaged.mp (only entry listed named)
    exact same
  · intro same
    exact ⟨_, some_ _ (mem_optionalStaged.mpr ⟨content, same, rfl⟩), rfl, rfl⟩

/-- The directory of a restored backup. -/
theorem Collected.restored
    (collected : Collected tools source configPath includeMemos payload role text file document
      relocated key) {target : Path} {tree : DirTree (List UInt8)} {named : δ}
    (reads : tools.toml.fromStr (tools.toml.print named) = some (({ file with
      privateKeyFile := PRIVATE_NAME
      presharedKeyFiles := relocatedNames 0 file.presharedKeyFiles } : FileConfig).named slug))
    (config : tree.node (target ++ [role.configFile]) =
      some (.file (tools.toml.print named)))
    (there : ∀ names content, names ≠ [role.configFile] →
      (tree.node (target ++ names) = some (.file content) ↔
        ∃ entry ∈ placedFiles tools source role key (tools.toml.print relocated)
            (file.resolve (UnixPath.parent configPath)).presharedKeyFiles
            (source.read (UnixPath.withExtension configPath "groups.json"))
            (memosKept source role includeMemos configPath),
          entry.2.1 = names ∧ entry.2.2 = content)) :
    RestoredNetwork tools source configPath includeMemos slug target tree role file
      (({ file with
        privateKeyFile := PRIVATE_NAME
        presharedKeyFiles := relocatedNames 0 file.presharedKeyFiles } : FileConfig).named
          slug) := by
  have differ := roleFiles_nodup role
  simp only [List.nodup_cons, List.mem_cons, List.not_mem_nil, or_false, not_or] at differ
  constructor
  · exact collected.chosen
  · rw [collected.read]
    exact collected.reads
  · rw [DirTree.contents_eq_some.mpr config]
    exact reads
  · rfl
  · have held := contents_placed there (mem_placedFiles.mpr (.inl rfl)) (by simp)
    rw [collected.keyRead, ← held, ← leadsTo_private.locate]
    rfl
  · refine List.ext_getElem? (fun index => ?_)
    have relocatedAt : (({ file with
        privateKeyFile := PRIVATE_NAME
        presharedKeyFiles := relocatedNames 0 file.presharedKeyFiles } : FileConfig).named
          slug).presharedKeyFiles[index]? =
        file.presharedKeyFiles[index]?.map (Option.map (fun _ => pskName index)) := by
      have at_ := relocatedNames_getElem? 0 file.presharedKeyFiles index
      rwa [Nat.zero_add] at at_
    rw [List.getElem?_map, List.getElem?_map, relocatedAt]
    cases found : file.presharedKeyFiles[index]? with
    | none => rfl
    | some path =>
        cases path with
        | none => rfl
        | some path =>
            obtain ⟨bytes, read⟩ :=
              Option.isSome_iff_exists.mp (collected.readable index path found).1
            have resolved : (file.resolve (UnixPath.parent configPath)).presharedKeyFiles[index]? =
                some (some (resolvePath (UnixPath.parent configPath) path)) := by
              rw [FileConfig.resolve, List.getElem?_map, found]
              rfl
            have held := contents_placed there (mem_placedFiles.mpr (.inr (.inl
              (mem_pskStaged.mpr ⟨index, _, resolved, rfl⟩)))) (by simp)
            rw [Nat.zero_add, read] at held
            simp only [Option.map_some, (leadsTo_pskName index).locate, read]
            exact congrArg (fun content => some (some content)) held
  · refine @contents_optional δ κ tools _ _ _ _ _ _ (fun same => differ.1.1 same.symm) there ?_ ?_
    · intro entry listed own
      rcases mem_placedFiles.mp listed with rfl | psk | rfl | group | memo
      · simp at own
      · obtain ⟨index, path, _, rfl⟩ := mem_pskStaged.mp psk
        simp at own
      · exact absurd (by simpa using own) differ.1.1
      · exact group
      · obtain ⟨content, _, rfl⟩ := mem_optionalStaged.mp memo
        exact absurd (by simpa using own.symm) differ.2.1
    · exact fun entry listed => mem_placedFiles.mpr (.inr (.inr (.inr (.inl listed))))
  · refine @contents_optional δ κ tools _ _ _ _ _ _ (fun same => differ.1.2 same.symm) there ?_ ?_
    · intro entry listed own
      rcases mem_placedFiles.mp listed with rfl | psk | rfl | group | memo
      · simp at own
      · obtain ⟨index, path, _, rfl⟩ := mem_pskStaged.mp psk
        simp at own
      · exact absurd (by simpa using own) differ.1.2
      · obtain ⟨content, _, rfl⟩ := mem_optionalStaged.mp group
        exact absurd (by simpa using own) differ.2.1
      · exact memo
    · exact fun entry listed => mem_placedFiles.mpr (.inr (.inr (.inr (.inr listed))))

/-- The size of the backup of a network. -/
def archiveSize (tools : BackupTools δ κ) (source : BackupSource) (configPath : String)
    (includeMemos : Bool) : Nat :=
  match collect tools source configPath includeMemos with
  | .ok payload => backupSize payload
  | .error _ => 0

/-- A created backup is read and restored as the network it was made of, under a new label, unless
it is larger than `MAX_BACKUP_BYTES`. -/
theorem backup_restores_iff {passphrase : String} {preview : BackupPreview} {archive : List UInt8}
    (keeps : TomlKeeps tools.toml slug)
    (base64 : ∀ bytes, tools.decode (tools.encode bytes) = some bytes)
    (opens : ∀ payload, collect tools source configPath includeMemos = .ok payload →
      OpensSealed tools payload)
    (created : createBackup tools source configPath passphrase includeMemos =
      .ok (preview, archive))
    (label : Names.isDnsLabel slug = true) (new : NewPlace location slug start) :
    (inspectBackup tools archive passphrase = .ok preview ∧
      ∃ role original restored after,
        restoreBackup tools none location archive passphrase slug .new { tree := start } =
          (.ok (preview, location.target slug ++ [role.configFile]), after) ∧
        RestoredNetwork tools source configPath includeMemos slug (location.target slug)
          after.tree role original restored) ↔
      archiveSize tools source configPath includeMemos ≤ Backup.MAX_BACKUP_BYTES := by
  unfold createBackup at created
  obtain ⟨⟨⟩, valid, created⟩ := bind_ok.mp created
  obtain ⟨payload, gathered, created⟩ := bind_ok.mp created
  obtain ⟨output, written, created⟩ := bind_ok.mp created
  cases pure_ok.mp created
  have sealed := opens payload gathered
  rw [archiveSize, gathered]
  constructor
  · intro restores
    by_contra large
    have length := sealPayload_length sealed written
    have inspected := restores.1
    unfold inspectBackup at inspected
    cases opened : decryptBackup tools archive passphrase with
    | error error =>
        rw [opened] at inspected
        cases inspected
    | ok other => exact decrypt_tooLarge (by rw [length]; exact Nat.lt_of_not_le large) other opened
  · intro small
    have opened := decrypt_seal sealed valid written small
    obtain ⟨role, text, file, document, relocated, key, collected⟩ := collect_ok gathered
    obtain ⟨named, restorable, reads⟩ := collected.restorable keeps base64 label
    obtain ⟨after, done, config, there⟩ := restorePayload_done label new restorable
    rw [collected.configFile] at done config there
    refine ⟨by rw [inspectBackup, opened]; rfl, role, file, _, after, ?_,
      collected.restored reads config there⟩
    let world : RestoreWorld := { tree := start }
    have decrypted : (lift (decryptBackup tools archive passphrase) : Restoring BackupPayload)
        world = (.ok payload, world) := by
      rw [opened]
      rfl
    unfold restoreBackup
    refine (run_bind (run_refuse (by simp [label]) _ _)).trans ?_
    exact (run_bind decrypted).trans done

end

/-! ### An example -/

/-- A document of a host with one peer, by the edits made to it. -/
structure SmallDocument where
  keyMoved : Bool
  pskMoved : Bool
  named : Bool
deriving DecidableEq

namespace SmallDocument

@[irreducible] def text (document : SmallDocument) : List UInt8 :=
  ("[interface]\naddress = \"10.99.0.1/24\"\nprivate_key_file = \"" ++
    (if document.keyMoved then PRIVATE_NAME else "host.key") ++ "\"\n" ++
    (if document.named then "network_name = \"copy\"\n" else "") ++
    "\n[[peer]]\npublic_key = \"AAAAAAAAAAAAAAAAAAAAAAAAAAAAAAAAAAAAAAAAAAk=\"\n" ++
    "allowed_ips = [\"10.99.0.2/32\"]\npreshared_key_file = \"" ++
    (if document.pskMoved then pskName 0 else "/etc/peer.psk") ++
    "\"\n\n").toByteArray.data.toList

def file (document : SmallDocument) : FileConfig where
  config := {
    interface := { networkName := if document.named then some "copy" else none
                   address := Ipv4Net.slash24 0x0A630001#32 }
    peers := [{ publicKey := ⟨9⟩, allowedIps := [Ipv4Net.host 0x0A630002#32] }] }
  privateKeyFile := if document.keyMoved then PRIVATE_NAME else "host.key"
  presharedKeyFiles := [some (if document.pskMoved then pskName 0 else "/etc/peer.psk")]

def all : List SmallDocument :=
  [⟨false, false, false⟩, ⟨true, false, false⟩, ⟨false, true, false⟩, ⟨true, true, false⟩,
    ⟨false, false, true⟩, ⟨true, false, true⟩, ⟨false, true, true⟩, ⟨true, true, true⟩]

@[irreducible] def parse (text : List UInt8) : Option SmallDocument :=
  all.find? (fun document => document.text = text)

theorem mem_all (document : SmallDocument) : document ∈ all := by
  obtain ⟨keyMoved, pskMoved, named⟩ := document
  cases keyMoved <;> cases pskMoved <;> cases named <;> decide

/-- Every edit has its own effect on the length. -/
theorem text_injective {one two : SmallDocument} (same : one.text = two.text) : one = two := by
  have length : ∀ document ∈ all, document.text.length = 206 +
      (if document.keyMoved then 11 else 0) + (if document.pskMoved then 5 else 0) +
      (if document.named then 22 else 0) := by decide +kernel
  have lengths := congrArg List.length same
  rw [length one (mem_all one), length two (mem_all two)] at lengths
  revert lengths
  obtain ⟨keyMoved, pskMoved, named⟩ := one
  obtain ⟨keyMoved', pskMoved', named'⟩ := two
  cases keyMoved <;> cases pskMoved <;> cases named <;> cases keyMoved' <;> cases pskMoved' <;>
    cases named' <;> simp

theorem parse_text (document : SmallDocument) : parse document.text = some document := by
  unfold parse
  cases found : all.find? (fun other => other.text = document.text) with
  | none => simpa using List.find?_eq_none.mp found document (mem_all document)
  | some other =>
      have same : other.text = document.text := by simpa using List.find?_some found
      rw [text_injective same]

theorem text_of_parse {text : List UInt8} {document : SmallDocument}
    (parsed : parse text = some document) : document.text = text := by
  unfold parse at parsed
  simpa using List.find?_some parsed

end SmallDocument

def smallToml : TomlTools SmallDocument where
  fromStr := fun text => (SmallDocument.parse text).map SmallDocument.file
  parse := SmallDocument.parse
  print := SmallDocument.text
  setPrivateKeyFile := fun _ document => some { document with keyMoved := true }
  setNetworkName := fun _ document => some { document with named := true }
  peerTables := fun _ => some 1
  setPresharedKeyFile := fun _ _ document => { document with pskMoved := true }

theorem smallToml_reads {document : SmallDocument} {file : FileConfig} :
    smallToml.fromStr (smallToml.print document) = some file ↔ document.file = file := by
  simp only [smallToml, SmallDocument.parse_text, Option.map_some, Option.some.injEq]

theorem smallToml_keeps : TomlKeeps smallToml "copy" where
  unedited := by
    intro text document parsed
    rw [← SmallDocument.text_of_parse parsed]
    rfl
  printed := by
    intro document
    simp only [smallToml, SmallDocument.parse_text, Option.isSome_some]
  privateKey := by
    intro document file edited reads renamed
    cases smallToml_reads.mp reads
    cases renamed
    exact ⟨smallToml_reads.mpr rfl, rfl⟩
  tables := by
    intro document file count reads tables
    cases smallToml_reads.mp reads
    cases tables
    rfl
  presharedKey := by
    intro document file count index reads tables enough
    cases smallToml_reads.mp reads
    cases tables
    obtain rfl : index = 0 := by omega
    exact ⟨smallToml_reads.mpr rfl, rfl⟩
  networkName := by
    intro document file reads
    cases smallToml_reads.mp reads
    exact ⟨{ document with named := true }, rfl, smallToml_reads.mpr rfl⟩

/-- The files of a host, each as long as base64 needs no padding for. -/
def smallSource : BackupSource where
  read := fun path =>
    if path = "net/host.toml" then some (SmallDocument.text ⟨false, false, false⟩)
    else if path = "net/host.key" then some [11, 12, 13]
    else if path = "/etc/peer.psk" then some [21, 22, 23]
    else if path = "net/host.groups.json" then some [91, 93, 10]
    else if path = "net/host.memos.db" then some [83, 81, 76]
    else none
  snapshot := fun path => if path = "net/host.memos.db" then some [83, 81, 76] else none
  os := "linux"
  nowMs := 1000
  salt := List.replicate Backup.SALT_LEN 1
  nonce := List.replicate Backup.NONCE_LEN 2
  saltLen := by decide
  nonceLen := by decide

/-- The libraries, where one payload is read from its JSON text. -/
def smallTools (known : Option BackupPayload) : BackupTools SmallDocument Unit where
  toml := smallToml
  encode := Base64Url.encode
  decode := Base64Url.decode
  fromSlice := fun text => known.filter (fun payload => payload.toVec = text)
  argon2 := fun _ _ _ _ _ => some ()
  encrypt := fun _ _ _ text => some (text ++ List.replicate Backup.TAG_LEN 0)
  decrypt := fun _ _ _ sealed => some (sealed.take (sealed.length - Backup.TAG_LEN))

@[irreducible] def smallPayload? : Option BackupPayload :=
  (collect (smallTools none) smallSource "net/host.toml" true).toOption

/-- A backup is collected before anything is read from JSON. -/
theorem collect_known (known : Option BackupPayload) :
    collect (smallTools known) smallSource "net/host.toml" true =
      collect (smallTools none) smallSource "net/host.toml" true := by
  have psks : ∀ tables paths index,
      addPresharedKeys (smallTools known) smallSource tables index paths =
        addPresharedKeys (smallTools none) smallSource tables index paths := by
    intro tables paths
    induction paths with
    | nil => exact fun _ => rfl
    | cons path rest ih =>
        intro index
        cases path with
        | none => exact ih (index + 1)
        | some path =>
            rw [addPresharedKeys, addPresharedKeys, ih]
            rfl
  unfold collect
  simp only [psks]
  rfl

theorem smallPayload_known {payload : BackupPayload}
    (collected : collect (smallTools smallPayload?) smallSource "net/host.toml" true =
      .ok payload) : smallPayload? = some payload := by
  rw [collect_known] at collected
  rw [smallPayload?, collected]
  rfl

theorem smallTools_opens (payload : BackupPayload)
    (collected : collect (smallTools smallPayload?) smallSource "net/host.toml" true =
      .ok payload) : OpensSealed (smallTools smallPayload?) payload where
  json := by
    have known := smallPayload_known collected
    simp [smallTools, known]
  sealed := by
    intro key nonce aad text ciphertext encrypted
    cases encrypted
    constructor
    · simp [smallTools]
    · simp

/-- A host with a PSK, groups and memos, restored with all of them under the label `copy`. -/
theorem backup_restores_small : ∃ preview archive,
    createBackup (smallTools smallPayload?) smallSource "net/host.toml" "correct horse battery"
        true = .ok (preview, archive) ∧
      inspectBackup (smallTools smallPayload?) archive "correct horse battery" = .ok preview ∧
      ∃ role original restored after,
        restoreBackup (smallTools smallPayload?) none homePlace archive "correct horse battery"
            "copy" .new { tree := DirTree.empty } =
          (.ok (preview, homePlace.target "copy" ++ [role.configFile]), after) ∧
        RestoredNetwork (smallTools smallPayload?) smallSource "net/host.toml" true "copy"
          (homePlace.target "copy") after.tree role original restored := by
  have succeeds : (createBackup (smallTools smallPayload?) smallSource "net/host.toml"
      "correct horse battery" true).toOption.isSome = true := by decide +kernel
  cases created : createBackup (smallTools smallPayload?) smallSource "net/host.toml"
      "correct horse battery" true with
  | error error =>
      rw [created] at succeeds
      cases succeeds
  | ok result =>
      have free : NewPlace homePlace "copy" (DirTree.empty : DirTree (List UInt8)) := by
        refine ⟨fun above _ => ?_, by decide, by decide, by decide⟩
        unfold DirTree.contents DirTree.empty
        by_cases root : above = [] <;> simp [root]
      have base64 : ∀ bytes, (smallTools smallPayload?).decode
          ((smallTools smallPayload?).encode bytes) = some bytes := by
        intro bytes
        simp only [smallTools, Base64Url.decode_encode]
      have fits : archiveSize (smallTools smallPayload?) smallSource "net/host.toml" true ≤
          Backup.MAX_BACKUP_BYTES := by
        have bounded : (smallPayload?.all (fun payload => payload.bound ≤ 100000)) = true := by
          decide +kernel
        unfold archiveSize
        cases gathered : collect (smallTools smallPayload?) smallSource "net/host.toml" true with
        | error error => exact Nat.zero_le _
        | ok payload =>
            have known := smallPayload_known gathered
            rw [known] at bounded
            have size := toVec_length_le payload
            have small : payload.bound ≤ 100000 := by simpa using bounded
            show backupSize payload ≤ 268435456
            simp only [backupSize, Backup.HEADER_LEN, Backup.TAG_LEN, Backup.SALT_LEN,
              Backup.NONCE_LEN]
            omega
      exact ⟨result.1, result.2, rfl,
        (backup_restores_iff smallToml_keeps base64 smallTools_opens created
          (by decide) free).mpr fits⟩

end PeerCove
