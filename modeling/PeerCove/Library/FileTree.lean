/-
Module: PeerCove.Library.FileTree
Layer: Library
Purpose: A tree of directories and files under absolute paths, with the operations of a file system
  on it, relative paths that may go up, and what each operation leaves alone.
Trusted boundary: a rename does not replace what is at its destination
Main exports: FileTree.DirTree, FileTree.walk, FileTree.normalize, DirTree.write,
  DirTree.createDirs, DirTree.removeAll, DirTree.rename
-/
import Mathlib.Data.List.Infix
import Mathlib.Logic.Function.Basic

namespace FileTree

/-- Names from the root. -/
abbrev Path : Type := List String

inductive Node (β : Type) where
  | directory
  | file (content : β)
deriving DecidableEq

/-- What is at each path; whatever there is is in a directory. -/
structure DirTree (β : Type) where
  node : Path → Option (Node β)
  root : node [] = some .directory
  grounded : ∀ path name, (node (path ++ [name])).isSome = true → node path = some .directory

/-- A part of a relative path. -/
inductive Component where
  | name (name : String)
  | up
deriving DecidableEq

variable {β : Type}

namespace DirTree

/-- The root alone. -/
def empty : DirTree β where
  node := fun path => if path = [] then some .directory else none
  root := rfl
  grounded := by
    intro path name there
    simp at there

def isDirectory (tree : DirTree β) (path : Path) : Bool :=
  match tree.node path with
  | some .directory => true
  | _ => false

/-- The content of the file at a path. -/
def contents (tree : DirTree β) (path : Path) : Option β :=
  match tree.node path with
  | some (.file content) => some content
  | _ => none

theorem isDirectory_iff {tree : DirTree β} {path : Path} :
    tree.isDirectory path = true ↔ tree.node path = some .directory := by
  unfold isDirectory
  split
  · rename_i same
    simp [same]
  · rename_i other
    simpa using other

theorem contents_eq_some {tree : DirTree β} {path : Path} {content : β} :
    tree.contents path = some content ↔ tree.node path = some (.file content) := by
  unfold contents
  split
  · rename_i same
    simp [same]
  · rename_i other
    constructor
    · intro found
      cases found
    · intro same
      exact absurd same (other content)

/-- There is nothing below what is not there. -/
theorem absent_below {tree : DirTree β} {path other : Path} (absent : tree.node path = none)
    (below : path <+: other) : tree.node other = none := by
  obtain ⟨rest, rfl⟩ := below
  induction rest using List.reverseRecOn with
  | nil => rwa [List.append_nil]
  | append_singleton rest name ih =>
      cases there : tree.node (path ++ (rest ++ [name])) with
      | none => rfl
      | some node =>
          rw [← List.append_assoc] at there
          have inside := tree.grounded (path ++ rest) name (by rw [there]; rfl)
          rw [ih] at inside
          cases inside

/-- Above a directory there are no files. -/
theorem no_file_above {tree : DirTree β} {path above : Path}
    (directory : tree.node path = some .directory) (below : above <+: path) :
    tree.contents above = none := by
  cases found : tree.contents above with
  | none => rfl
  | some content =>
      have file := contents_eq_some.mp found
      obtain ⟨rest, rfl⟩ := below
      cases rest with
      | nil =>
          rw [List.append_nil, file] at directory
          cases directory
      | cons name rest =>
          have within : tree.node (above ++ [name]) ≠ none := by
            intro absent
            have under : above ++ [name] <+: above ++ name :: rest := ⟨rest, by simp⟩
            have gone := absent_below absent under
            rw [directory] at gone
            cases gone
          have parent := tree.grounded above name (Option.isSome_iff_ne_none.mpr within)
          rw [file] at parent
          cases parent

end DirTree

/-! ### Relative paths -/

/-- Follow a relative path; each step starts from a directory. -/
def walk (tree : DirTree β) : Path → List Component → Option Path
  | here, [] => some here
  | here, .name name :: rest =>
      if tree.isDirectory here then walk tree (here ++ [name]) rest else none
  | here, .up :: rest => if tree.isDirectory here then walk tree here.dropLast rest else none

/-- Where a relative path leads, by its text alone. -/
def normalize : Path → List Component → Path
  | here, [] => here
  | here, .name name :: rest => normalize (here ++ [name]) rest
  | here, .up :: rest => normalize here.dropLast rest

theorem walk_some {tree : DirTree β} {here found : Path} {route : List Component}
    (walked : walk tree here route = some found) : found = normalize here route := by
  induction route generalizing here with
  | nil =>
      cases walked
      rfl
  | cons component rest ih =>
      cases component with
      | name name =>
          rw [walk] at walked
          split at walked
          · exact ih walked
          · cases walked
      | up =>
          rw [walk] at walked
          split at walked
          · exact ih walked
          · cases walked

/-- A path that does not go up leads below where it starts. -/
theorem normalize_names (here : Path) (names : List String) :
    normalize here (names.map Component.name) = here ++ names := by
  induction names generalizing here with
  | nil => simp [normalize]
  | cons name rest ih => simp [normalize, ih]

/-! ### Operations; `none` where the file system refuses -/

namespace DirTree

/-- Write a file into a directory that is there. -/
def write (path : Path) (content : β) (tree : DirTree β) : Option (DirTree β) :=
  if fine : path ≠ [] ∧ tree.isDirectory path.dropLast = true ∧
      tree.isDirectory path = false then
    some {
      node := Function.update tree.node path (some (.file content))
      root := by
        rw [Function.update_of_ne fine.1.symm]
        exact tree.root
      grounded := by
        intro above name there
        have apart : above = path → False := by
          rintro rfl
          -- a file has nothing below it
          rw [Function.update_of_ne (by simp)] at there
          have directory := isDirectory_iff.mpr (tree.grounded above name there)
          rw [fine.2.2] at directory
          cases directory
        rw [Function.update_of_ne apart]
        by_cases same : above ++ [name] = path
        · have parent := isDirectory_iff.mp fine.2.1
          rwa [← same, List.dropLast_concat] at parent
        · rw [Function.update_of_ne same] at there
          exact tree.grounded above name there }
  else none

/-- Create a directory with those above it. -/
def createDirs (path : Path) (tree : DirTree β) : Option (DirTree β) :=
  if path.inits.any (fun above => (tree.contents above).isSome) then none
  else some {
    node := fun other => if other <+: path then some .directory else tree.node other
    root := by simp
    grounded := by
      intro above name there
      by_cases within : above <+: path
      · exact if_pos within
      · rw [if_neg within]
        have apart : ¬ above ++ [name] <+: path :=
          fun longer => within ((List.prefix_append _ _).trans longer)
        rw [if_neg apart] at there
        exact tree.grounded above name there }

/-- Remove what is at a path and below it, but for what a removal that breaks off has left. -/
def removeSome (spared : Path → Bool) (path : Path) (tree : DirTree β) : DirTree β where
  node := fun other =>
    if path ≠ [] ∧ ∃ above ∈ other.inits, path <+: above ∧ spared above = false then none
    else tree.node other
  root := by
    rw [if_neg]
    · exact tree.root
    · intro removed
      obtain ⟨some_, above, listed, under, _⟩ := removed
      rw [List.inits, List.mem_singleton] at listed
      rw [listed] at under
      exact some_ (List.prefix_nil.mp under)
  grounded := by
    intro parent name there
    split at there
    · cases there
    · rename_i kept
      rw [if_neg]
      · exact tree.grounded parent name there
      · intro removed
        obtain ⟨some_, above, listed, gone⟩ := removed
        refine kept ⟨some_, above, ?_, gone⟩
        rw [List.mem_inits] at listed ⊢
        exact listed.trans (List.prefix_append _ _)

def removeAll (path : Path) (tree : DirTree β) : DirTree β :=
  tree.removeSome (fun _ => false) path

/-- Move what is at a path and below it to where nothing is. -/
def rename (source dest : Path) (tree : DirTree β) : Option (DirTree β) :=
  if fine : (source ≠ [] ∧ (tree.node source).isSome = true) ∧
      (tree.node dest).isNone = true ∧ tree.isDirectory dest.dropLast = true ∧
      ¬ source <+: dest then
    some {
      node := fun other =>
        if dest <+: other then tree.node (source ++ other.drop dest.length)
        else if source <+: other then none
        else tree.node other
      root := by
        have destSome : dest ≠ [] := by
          rintro rfl
          rw [tree.root] at fine
          cases fine.2.1
        rw [if_neg (fun under => destSome (List.prefix_nil.mp under)),
          if_neg (fun under => fine.1.1 (List.prefix_nil.mp under))]
        exact tree.root
      grounded := by
        intro above name there
        by_cases within : dest <+: above
        · -- below the destination, as it was below the source
          obtain ⟨rest, rfl⟩ := within
          rw [if_pos (List.prefix_append _ _)]
          rw [if_pos (by rw [List.append_assoc]; exact List.prefix_append _ _)] at there
          rw [List.append_assoc, List.drop_left, ← List.append_assoc] at there
          rw [List.drop_left]
          exact tree.grounded _ name there
        · rw [if_neg within]
          by_cases arrived : dest <+: above ++ [name]
          · -- the destination itself
            have same : above ++ [name] = dest := by
              rcases List.prefix_concat_iff.mp arrived with whole | shorter
              · exact whole.symm
              · exact absurd shorter within
            have apart : ¬ source <+: above := by
              intro under
              exact fine.2.2.2 (same ▸ under.trans (List.prefix_append _ _))
            rw [if_neg apart]
            have parent := isDirectory_iff.mp fine.2.2.1
            rwa [← same, List.dropLast_concat] at parent
          · rw [if_neg arrived] at there
            split at there
            · cases there
            · rename_i stays
              rw [if_neg (fun under => stays (under.trans (List.prefix_append _ _)))]
              exact tree.grounded above name there }
  else none

/-! ### What an operation leaves alone -/

section

variable {tree after : DirTree β} {path other source dest : Path} {content : β}

theorem write_exists (some_ : path ≠ []) (parent : tree.node path.dropLast = some .directory)
    (noDirectory : tree.node path ≠ some .directory) (content : β) :
    ∃ after, tree.write path content = some after := by
  have free : tree.isDirectory path = false := by
    rw [← Bool.not_eq_true, isDirectory_iff]
    exact noDirectory
  exact ⟨_, dif_pos ⟨some_, isDirectory_iff.mpr parent, free⟩⟩

theorem write_some (written : tree.write path content = some after) :
    path ≠ [] ∧ tree.node path.dropLast = some .directory ∧ tree.isDirectory path = false ∧
      after.node = Function.update tree.node path (some (.file content)) := by
  unfold write at written
  split at written
  · rename_i fine
    cases written
    exact ⟨fine.1, isDirectory_iff.mp fine.2.1, fine.2.2, rfl⟩
  · cases written

theorem node_written (written : tree.write path content = some after) :
    after.node path = some (.file content) := by
  rw [(write_some written).2.2.2, Function.update_self]

theorem write_apart (written : tree.write path content = some after) (apart : other ≠ path) :
    after.node other = tree.node other := by
  rw [(write_some written).2.2.2, Function.update_of_ne apart]

/-- Writing a file leaves every directory. -/
theorem directory_write (written : tree.write path content = some after)
    (directory : tree.node other = some .directory) : after.node other = some .directory := by
  obtain ⟨_, _, noDirectory, _⟩ := write_some written
  rw [write_apart written, directory]
  rintro rfl
  rw [isDirectory_iff.mpr directory] at noDirectory
  cases noDirectory

theorem createDirs_some (created : tree.createDirs path = some after) :
    after.node = fun other => if other <+: path then some .directory else tree.node other := by
  unfold createDirs at created
  split at created
  · cases created
  · cases created
    rfl

theorem createDirs_exists (clear : ∀ above, above <+: path → tree.contents above = none) :
    ∃ after, tree.createDirs path = some after := by
  have fine : path.inits.any (fun above => (tree.contents above).isSome) = false := by
    rw [List.any_eq_false]
    intro above listed
    rw [clear above ((List.mem_inits _ _).mp listed)]
    exact Bool.false_ne_true
  exact ⟨_, if_neg (by rw [fine]; exact Bool.false_ne_true)⟩

/-- No file becomes a directory, or comes up. -/
theorem file_createDirs (created : tree.createDirs path = some after) :
    after.node other = some (.file content) ↔ tree.node other = some (.file content) := by
  by_cases above : other <+: path
  · have blocked : tree.contents other = none := by
      unfold createDirs at created
      split at created
      · cases created
      · rename_i clear
        rw [Bool.not_eq_true, List.any_eq_false] at clear
        have clear := clear other ((List.mem_inits _ _).mpr above)
        rwa [Bool.not_eq_true, Option.isSome_eq_false_iff, Option.isNone_iff_eq_none] at clear
    rw [createDirs_some created, ← @contents_eq_some _ tree, blocked]
    simp [above]
  · rw [createDirs_some created]
    simp [above]

theorem createDirs_apart (created : tree.createDirs path = some after) (apart : ¬ other <+: path) :
    after.node other = tree.node other := by
  rw [createDirs_some created]
  exact if_neg apart

theorem directory_created (created : tree.createDirs path = some after) (above : other <+: path) :
    after.node other = some .directory := by
  rw [createDirs_some created]
  exact if_pos above

theorem directory_createDirs (created : tree.createDirs path = some after)
    (directory : tree.node other = some .directory) : after.node other = some .directory := by
  by_cases above : other <+: path
  · exact directory_created created above
  · rw [createDirs_apart created above, directory]

theorem removeSome_apart {spared : Path → Bool} (apart : ¬ path <+: other) :
    (tree.removeSome spared path).node other = tree.node other := by
  refine if_neg (fun removed => ?_)
  obtain ⟨_, above, listed, under, _⟩ := removed
  exact apart (under.trans ((List.mem_inits _ _).mp listed))

theorem removeSome_cases (spared : Path → Bool) (path : Path) (tree : DirTree β) (other : Path) :
    (tree.removeSome spared path).node other = none ∨
      (tree.removeSome spared path).node other = tree.node other := by
  by_cases gone : path ≠ [] ∧ ∃ above ∈ other.inits, path <+: above ∧ spared above = false
  · exact .inl (if_pos gone)
  · exact .inr (if_neg gone)

theorem removeAll_apart (apart : ¬ path <+: other) :
    (tree.removeAll path).node other = tree.node other :=
  removeSome_apart apart

theorem removeAll_below (some_ : path ≠ []) (below : path <+: other) :
    (tree.removeAll path).node other = none :=
  if_pos ⟨some_, path, (List.mem_inits _ _).mpr below, List.prefix_rfl, rfl⟩

theorem rename_exists (some_ : source ≠ []) (there : (tree.node source).isSome = true)
    (free : tree.node dest = none) (parent : tree.node dest.dropLast = some .directory)
    (apart : ¬ source <+: dest) : ∃ after, tree.rename source dest = some after := by
  have fine : (source ≠ [] ∧ (tree.node source).isSome = true) ∧
      (tree.node dest).isNone = true ∧ tree.isDirectory dest.dropLast = true ∧
      ¬ source <+: dest :=
    ⟨⟨some_, there⟩, by rw [free]; rfl, isDirectory_iff.mpr parent, apart⟩
  exact ⟨_, dif_pos fine⟩

theorem rename_some (moved : tree.rename source dest = some after) :
    after.node = fun other =>
      if dest <+: other then tree.node (source ++ other.drop dest.length)
      else if source <+: other then none
      else tree.node other := by
  unfold rename at moved
  split at moved
  · cases moved
    rfl
  · cases moved

theorem rename_apart (moved : tree.rename source dest = some after)
    (fromSource : ¬ source <+: other) (fromDest : ¬ dest <+: other) :
    after.node other = tree.node other := by
  rw [rename_some moved]
  simp [fromSource, fromDest]

theorem rename_below (moved : tree.rename source dest = some after) (rest : Path) :
    after.node (dest ++ rest) = tree.node (source ++ rest) := by
  rw [rename_some moved]
  simp

theorem rename_gone (moved : tree.rename source dest = some after) (below : source <+: other)
    (apart : ¬ dest <+: other) : after.node other = none := by
  rw [rename_some moved]
  simp [below, apart]

end

end DirTree

end FileTree
