/-
Module: PeerCove.Memo.LineDiff
Layer: Memo
Purpose: The line diff of two memo bodies: common lines at both ends are set aside, and the rest is
  compared over a table of longest common subsequences.
Trusted boundary: none
Main exports: DiffLine, diffLines, lcsDiff
-/
import PeerCove.Core.Text

namespace PeerCove

inductive DiffLineKind where
  | same
  | removed
  | added
deriving DecidableEq

structure DiffLine where
  kind : DiffLineKind
  text : String
deriving DecidableEq

/-- The lines as one kind. -/
def DiffLine.all (kind : DiffLineKind) (lines : List String) : List DiffLine :=
  lines.map (fun text => { kind := kind, text := text })

/-! ### The table -/

/-- One cell of the table, stored row by row in a vector of the given width. -/
def dpCell (width : Nat) (dp : List Nat) (i j : Nat) : Nat :=
  dp.getD (i * width + j) 0

/-- Body of the two loops: fills `dp[i][j]` from the cells after it. -/
def fillCell (old new : List String) (i : Nat) (dp : List Nat) (j : Nat) : List Nat :=
  let width := new.length + 1
  dp.set (i * width + j)
    (if old[i]? = new[j]? then dpCell width dp (i + 1) (j + 1) + 1
    else max (dpCell width dp (i + 1) j) (dpCell width dp i (j + 1)))

/-- The inner loop, `for j in (0..n).rev()`. -/
def fillRow (old new : List String) (dp : List Nat) (i : Nat) : List Nat :=
  (List.range new.length).reverse.foldl (fillCell old new i) dp

/-- `dp[i][j]` is the length of a longest common subsequence of `old[i..]` and `new[j..]`. -/
def lcsTable (old new : List String) : List Nat :=
  (List.range old.length).reverse.foldl (fillRow old new)
    (List.replicate ((old.length + 1) * (new.length + 1)) 0)

/-! ### The diff -/

/-- The `while` loops that read the table from its start.  Lines without a counterpart are removed
first, then added. -/
def backtrack (old new : List String) (dp : List Nat) (i j : Nat) : List DiffLine :=
  if inside : i < old.length ∧ j < new.length then
    have atOld : i < old.length := inside.1
    have atNew : j < new.length := inside.2
    if old[i] = new[j] then
      { kind := .same, text := old[i] } :: backtrack old new dp (i + 1) (j + 1)
    else if dpCell (new.length + 1) dp (i + 1) j ≥ dpCell (new.length + 1) dp i (j + 1) then
      { kind := .removed, text := old[i] } :: backtrack old new dp (i + 1) j
    else
      { kind := .added, text := new[j] } :: backtrack old new dp i (j + 1)
  else
    DiffLine.all .removed (old.drop i) ++ DiffLine.all .added (new.drop j)
termination_by (old.length - i) + (new.length - j)

def lcsDiff (old new : List String) : List DiffLine :=
  backtrack old new (lcsTable old new) 0 0

/-- Number of lines that are the same from the start on. -/
def prefixLines (old new : List String) : Nat :=
  ((List.range (min old.length new.length)).takeWhile (fun k => old[k]? = new[k]?)).length

/-- Number of lines that are the same from the end on, without those of the start. -/
def suffixLines (old new : List String) (prefixLen : Nat) : Nat :=
  ((List.range (min old.length new.length - prefixLen)).takeWhile
    (fun k => old[old.length - 1 - k]? = new[new.length - 1 - k]?)).length

/-- `lines[prefix..lines.len() - suffix]`. -/
def middle (lines : List String) (prefixLen suffixLen : Nat) : List String :=
  (lines.take (lines.length - suffixLen)).drop prefixLen

/-- Above this product of the sizes of the middle parts there is no table. -/
def DIFF_TABLE_LIMIT : Nat := 4_000_000

/-- `diff_lines`, on the lines of the two bodies. -/
def diffOfLines (old new : List String) : List DiffLine :=
  let prefixLen := prefixLines old new
  let suffixLen := suffixLines old new prefixLen
  let oldMid := middle old prefixLen suffixLen
  let newMid := middle new prefixLen suffixLen
  DiffLine.all .same (old.take prefixLen) ++
    (if oldMid.length * newMid.length > DIFF_TABLE_LIMIT then
      DiffLine.all .removed oldMid ++ DiffLine.all .added newMid
    else
      lcsDiff oldMid newMid) ++
    DiffLine.all .same (old.drop (old.length - suffixLen))

/-- Line diff of two bodies. -/
def diffLines (old new : String) : List DiffLine :=
  diffOfLines (Text.lines old) (Text.lines new)

end PeerCove
