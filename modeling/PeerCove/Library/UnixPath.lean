/-
Module: PeerCove.Library.UnixPath
Layer: Library
Purpose: The texts of paths with `/` between their names: components, file name, extension, parent.
Trusted boundary: none
Main exports: UnixPath.components, UnixPath.isAbsolute, UnixPath.fileName, UnixPath.withExtension,
  UnixPath.parent, UnixPath.locate, UnixPath.names_of_plain
-/
import Mathlib.Data.List.Infix
import PeerCove.Library.FileTree

namespace UnixPath

open FileTree

/-- The parts between the separators. -/
def parts (text : String) : List (List Char) :=
  text.toList.splitOn '/'

def component (part : List Char) : Option Component :=
  if part = [] ∨ part = ['.'] then none
  else if part = ['.', '.'] then some .up
  else some (.name (String.ofList part))

/-- Repeated separators and single dots do not count. -/
def components (text : String) : List Component :=
  (parts text).filterMap component

def isAbsolute (text : String) : Bool :=
  text.toList.head? = some '/'

/-- The path can be opened as a file: it ends with a name, and nothing in it ends a C string. -/
def opensFile (text : String) : Bool :=
  (match (parts text).getLast? with
    | some part => (component part).any (fun last => last ≠ .up)
    | none => false) && Char.ofNat 0 ∉ text.toList

/-- The last component, where it is a name. -/
def fileName (text : String) : Option String :=
  match (components text).getLast? with
  | some (.name name) => some name
  | _ => none

/-- Cut off what follows the last component; the characters come in reverse. -/
def dropTrailing : List Char → List Char
  | '/' :: rest => dropTrailing rest
  | '.' :: '/' :: rest => dropTrailing rest
  | chars => chars

/-- A file name up to its last dot, unless it begins with that; the characters come in reverse. -/
def reverseStem (name : List Char) : List Char :=
  match (name.dropWhile (· ≠ '.')) with
  | '.' :: before => if before = [] then name else before
  | _ => name

/-- Put another extension in place of the last one, or after a file name without one. -/
def withExtension (text extension : String) : String :=
  match fileName text with
  | none => text
  | some name =>
      let shortened := dropTrailing text.toList.reverse
      let stem := reverseStem name.toList.reverse ++ shortened.drop name.toList.length
      String.ofList stem.reverse ++ "." ++ extension

/-- What stands before the last component. -/
def parent (text : String) : String :=
  let before := dropTrailing ((dropTrailing text.toList.reverse).dropWhile (· ≠ '/'))
  if before = [] ∧ isAbsolute text = true then "/" else String.ofList before.reverse

/-- Where a path leads that is joined to a directory, by its text. -/
def locate (directory : Path) (text : String) : Path :=
  normalize (if isAbsolute text then [] else directory) (components text)

example : withExtension "/srv/home/host.toml" "groups.json" = "/srv/home/host.groups.json" := by
  decide

/-! ### Paths that stay below a directory -/

/-- Two dots in a row stand somewhere in the text. -/
def hasDots (text : String) : Bool :=
  text.toList.tails.any (fun rest => ['.', '.'].isPrefixOf rest)

theorem hasDots_iff {text : String} : hasDots text = true ↔ ['.', '.'] <:+: text.toList := by
  simp only [hasDots, List.any_eq_true, List.mem_tails, List.isPrefixOf_iff_prefix]
  rw [List.infix_iff_prefix_suffix]
  constructor
  · intro found
    obtain ⟨rest, suffix, front⟩ := found
    exact ⟨rest, front, suffix⟩
  · intro found
    obtain ⟨rest, front, suffix⟩ := found
    exact ⟨rest, suffix, front⟩

/-- A part of a text is an infix of it. -/
theorem infix_of_mem_parts {text : String} {part : List Char} (member : part ∈ parts text) :
    part <:+: text.toList := by
  have whole : ['/'].intercalate (parts text) = text.toList := List.intercalate_splitOn '/'
  rw [← whole, List.intercalate]
  generalize parts text = all at member
  induction all with
  | nil => cases member
  | cons first rest ih =>
      cases rest with
      | nil =>
          rw [List.mem_singleton.mp member]
          simp
      | cons second rest =>
          rw [List.intersperse_cons_cons, List.flatten_cons, List.flatten_cons]
          rcases List.mem_cons.mp member with rfl | later
          · exact (List.prefix_append _ _).isInfix
          · exact ((ih later).trans (List.suffix_append _ _).isInfix).trans
              (List.suffix_append _ _).isInfix

/-- Without two dots a text does not go up. -/
theorem components_plain {text : String} (plain : hasDots text = false) :
    Component.up ∉ components text := by
  intro goesUp
  obtain ⟨part, member, isUp⟩ := List.mem_filterMap.mp goesUp
  have dots : part = ['.', '.'] := by
    unfold component at isUp
    split at isUp
    · cases isUp
    · split at isUp
      · assumption
      · cases isUp
  have infixed := infix_of_mem_parts member
  rw [dots, ← hasDots_iff, plain] at infixed
  cases infixed

/-- A route that does not go up has names only. -/
theorem names_of_plain {route : List Component} (plain : Component.up ∉ route) :
    ∃ names : List String, route = names.map Component.name := by
  induction route with
  | nil => exact ⟨[], rfl⟩
  | cons first rest ih =>
      obtain ⟨names, same⟩ := ih (fun later => plain (List.mem_cons_of_mem _ later))
      cases first with
      | name name => exact ⟨name :: names, by rw [same, List.map_cons]⟩
      | up => exact absurd List.mem_cons_self plain

end UnixPath
