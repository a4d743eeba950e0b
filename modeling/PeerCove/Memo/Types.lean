/-
Module: PeerCove.Memo.Types
Layer: Store
Purpose: The values that shared-memo requests, replies and events carry, the limits of the store,
  and what a listing shows of a body.
Trusted boundary: none
Main exports: SharedPermLevel, SharedMemoSummary, SharedMemoDetail, SharedMemoLimits, excerpt,
  checklistProgress
-/
import PeerCove.Core.Text
import PeerCove.Library.Fallible

namespace PeerCove

open Fallible

def MAX_TITLE_CHARS : Nat := 200
def MAX_COMMENT_BODY_BYTES : Nat := 4 * 1024
def MAX_COMMENTS_PER_MEMO : Nat := 500
def EXCERPT_CHARS : Nat := 120

/-- Permission on a memo, from nothing to everything. -/
inductive SharedPermLevel where
  | none
  | viewer
  | editor
deriving Repr, DecidableEq

namespace SharedPermLevel

/-- Position in the order the levels are declared in. -/
def rank : SharedPermLevel → Nat
  | .none => 0
  | .viewer => 1
  | .editor => 2

instance : LE SharedPermLevel := ⟨fun one two => one.rank ≤ two.rank⟩

instance : DecidableLE SharedPermLevel := fun one two =>
  inferInstanceAs (Decidable (one.rank ≤ two.rank))

/-- `Ord::max`. -/
def max (one two : SharedPermLevel) : SharedPermLevel :=
  if one ≤ two then two else one

/-- `Iterator::max`. -/
def maximum : List SharedPermLevel → Option SharedPermLevel
  | [] => Option.none
  | level :: rest => some (rest.foldl max level)

end SharedPermLevel

/-- Permission of one member, with the name it had when the entry was made. -/
structure SharedMemberPerm where
  memberId : String
  name : String
  level : SharedPermLevel
deriving Repr, DecidableEq

/-- Permission of one group. -/
structure SharedGroupPerm where
  groupId : String
  name : String
  level : SharedPermLevel
deriving Repr, DecidableEq

/-- What a listing asks for. -/
structure SharedMemoQuery where
  trash : Bool := false
  folderId : Option String := none
  search : Option String := none
deriving Repr, DecidableEq

/-- A folder as listings show it. -/
structure MemoFolder where
  id : String
  name : String
  memoCount : Nat
deriving Repr, DecidableEq

/-- A memo in a listing, as the recipient may see it. -/
structure SharedMemoSummary where
  id : String
  title : String
  excerpt : String
  folderId : Option String
  revision : Nat
  createdAt : Nat
  updatedAt : Nat
  updatedBy : Option String
  ownerId : String
  ownerName : String
  deletedAt : Option Nat
  canEdit : Bool
  canManage : Bool
  lockedBy : Option String
  checklistDone : Nat
  checklistTotal : Nat
  commentCount : Nat
deriving Repr, DecidableEq

/-- A memo as the recipient may see it; the permissions are shown to those who may change them. -/
structure SharedMemoDetail where
  id : String
  title : String
  body : String
  folderId : Option String
  revision : Nat
  createdAt : Nat
  updatedAt : Nat
  updatedBy : Option String
  ownerId : String
  ownerName : String
  deletedAt : Option Nat
  canEdit : Bool
  canManage : Bool
  lockedBy : Option String
  everyone : Option SharedPermLevel
  members : List SharedMemberPerm
  groups : List SharedGroupPerm
  commentCount : Nat
deriving Repr, DecidableEq

structure SharedMemoComment where
  commentId : String
  memoId : String
  authorId : String
  authorName : String
  body : String
  createdAtUnixMs : Nat
deriving Repr, DecidableEq

/-- A version in the list of versions. -/
structure SharedMemoHistoryEntry where
  hid : Nat
  revision : Nat
  kind : String
  savedByName : String
  createdAtUnixMs : Nat
  title : String
  bodyBytes : Nat
deriving Repr, DecidableEq

structure SharedMemoHistoryDetail where
  entry : SharedMemoHistoryEntry
  body : String
deriving Repr, DecidableEq

/-! ### Limits -/

/-- Limits of the store; a host may change them. -/
structure SharedMemoLimits where
  maxBodyBytes : Nat := 256 * 1024
  maxMemoCount : Nat := 10000
  maxTotalBytes : Nat := 100 * 1024 * 1024
  maxVersions : Nat := 100
  historyDays : Nat := 30
  trashDays : Nat := 30
deriving Repr, DecidableEq

/-- `RangeInclusive::contains`, refusing what is outside. -/
def requireRange (low high value : Nat) (error : String) : Except String Unit :=
  refuseIf (¬ (low ≤ value ∧ value ≤ high)) error

def SharedMemoLimits.validate (limits : SharedMemoLimits) : Except String Unit := do
  requireRange 1024 (256 * 1024) limits.maxBodyBytes
    "本文サイズの上限は 1KB〜256KB の範囲で指定してください"
  requireRange 1 100000 limits.maxMemoCount
    "メモ件数の上限は 1〜100,000 件の範囲で指定してください"
  requireRange (1024 * 1024) (1024 * 1024 * 1024) limits.maxTotalBytes
    "全体容量の上限は 1MB〜1GB の範囲で指定してください"
  requireRange 1 1000 limits.maxVersions
    "変更履歴の保持件数は 1〜1,000 の範囲で指定してください"
  requireRange 1 365 limits.historyDays
    "変更履歴の保持日数は 1〜365 日の範囲で指定してください"
  requireRange 1 365 limits.trashDays
    "ゴミ箱の保持日数は 1〜365 日の範囲で指定してください"

/-- The defaults are inside the ranges. -/
theorem SharedMemoLimits.validate_default : ({} : SharedMemoLimits).validate = .ok () := by
  simp [validate, requireRange]

/-- `kana_fold`: katakana letters as hiragana. -/
def kanaFold (text : String) : String :=
  String.ofList (text.toList.map (fun c =>
    if 0x30a1 ≤ c.toNat ∧ c.toNat ≤ 0x30f6 then Char.ofNat (c.toNat - 0x60) else c))

/-! ### What a listing shows of a body -/

/-- `str::trim_start`. -/
def trimStart (s : String) : String :=
  Text.trimStartMatches Text.isWhitespace s

/-- The text after the mark of a list item: a bullet, or digits and a point. -/
def listItem (line : String) : Option String :=
  match (Text.stripPrefix line "- ").or
      ((Text.stripPrefix line "* ").or (Text.stripPrefix line "+ ")) with
  | some rest => some rest
  | none =>
      if (line.toList.takeWhile Text.isAsciiDigit).length = 0 then none
      else Text.stripPrefix (String.ofList (line.toList.dropWhile Text.isAsciiDigit)) ". "

/-- Finished and all items of the checklists in a body. -/
def checklistProgress (body : String) : Nat × Nat :=
  (Text.lines body).foldl (fun (done, total) line =>
    match listItem (trimStart line) with
    | none => (done, total)
    | some rest =>
        if Text.startsWith rest "[ ] " || rest = "[ ]" then (done, total + 1)
        else if Text.startsWith rest "[x] " || Text.startsWith rest "[X] " ||
            rest = "[x]" || rest = "[X]" then (done + 1, total + 1)
        else (done, total)) (0, 0)

/-- The text of a line without the marks of headings and quotations. -/
def excerptLine (line : String) : String :=
  trimStart (Text.trimStartMatches (fun c => c = '#' || c = '>') (Text.trim line))

/-- The loop of `excerpt`: lines are joined until there are enough characters. -/
def excerptLoop (maxChars : Nat) : List String → String → String
  | [], out => out
  | line :: rest, out =>
      if excerptLine line = "" then excerptLoop maxChars rest out
      else
        let joined := if out = "" then excerptLine line else out ++ " " ++ excerptLine line
        if Text.charCount joined ≥ maxChars then joined else excerptLoop maxChars rest joined

/-- The beginning of a body, for listings. -/
def excerpt (body : String) (maxChars : Nat) : String :=
  let out := excerptLoop maxChars (Text.lines body) ""
  if Text.charCount out > maxChars then String.ofList (out.toList.take maxChars) ++ "…" else out

example : excerpt "# Plan\n\n- [x] one\n- [ ] two" 120 = "Plan - [x] one - [ ] two" := by
  decide

end PeerCove
