/-
Module: PeerCove.Proofs.Backlinks
Layer: Proofs
Purpose: Which memos the list of backlinks shows: those that contain the link with letters of ASCII
  in either case.
Trusted boundary: none
Main exports: linkText, backlinks_mem, backlinks_exact_iff
-/
import PeerCove.Proofs.PersonalStore

namespace PeerCove

open Stateful MemoStore

variable {db : MemoDb} {id other title : String} {memo row : PersonalMemo}

/-! ### The pattern -/

/-- The text of a link to a title. -/
def linkText (title : String) : List Char :=
  '[' :: '[' :: title.toList ++ [']', ']']

/-- The replacements one after the other escape every special character once. -/
theorem escapeLike_eq (text : List Char) : escapeLike text = Like.escaped likeSpecials text := by
  induction text with
  | nil => rfl
  | cons c text ih =>
      have left : escapeLike (c :: text) = escapeLike [c] ++ escapeLike text := by
        rw [escapeLike, escapeLike, escapeLike, List.flatMap_cons, List.flatMap_append,
          List.flatMap_append, List.flatMap_singleton]
      have right : Like.escaped likeSpecials (c :: text) =
          Like.escaped likeSpecials [c] ++ Like.escaped likeSpecials text := by
        rw [Like.escaped, Like.escaped, Like.escaped, List.flatMap_cons, List.flatMap_singleton]
      rw [left, right, ih]
      congr 1
      by_cases escape : c = '\\'
      · rw [escape]
        rfl
      · by_cases many : c = '%'
        · rw [many]
          rfl
        · by_cases one : c = '_'
          · rw [one]
            rfl
          · simp [escapeLike, Like.escaped, likeSpecials, escape, many, one]

/-- Brackets are no special characters. -/
theorem backlinkPattern_eq (title : String) :
    backlinkPattern title = '%' :: (Like.escaped likeSpecials (linkText title) ++ ['%']) := by
  have split : Like.escaped likeSpecials (linkText title) =
      Like.escaped likeSpecials ['[', '['] ++ Like.escaped likeSpecials title.toList ++
        Like.escaped likeSpecials [']', ']'] := by
    have parts : linkText title = ['[', '['] ++ title.toList ++ [']', ']'] := rfl
    rw [parts, Like.escaped, List.flatMap_append, List.flatMap_append]
    rfl
  rw [split, backlinkPattern, escapeLike_eq, List.append_assoc, List.append_assoc]
  rfl

/-- The search finds the text of the link, letters of ASCII in either case. -/
theorem like_backlinkPattern (title : String) (body : List Char) :
    Like.like Text.toAsciiLower likeSpecials (backlinkPattern title) body = true ↔
      (linkText title).map Text.toAsciiLower <:+: body.map Text.toAsciiLower := by
  have tokens : Like.parse likeSpecials (backlinkPattern title) =
      some (.many :: (linkText title).map .lit ++ [.many]) := by
    have wildcard : ('%' : Char) ≠ likeSpecials.escape := by decide
    rw [backlinkPattern_eq, Like.parse_cons wildcard, Like.parse_escaped]
    rfl
  rw [Like.like, tokens]
  exact Like.fits_infix (linkText title) body

/-! ### The list -/

/-- The body contains the text of the link. -/
def ContainsLink (title body : String) : Prop :=
  linkText title <:+: body.toList

instance (title body : String) : Decidable (ContainsLink title body) :=
  inferInstanceAs (Decidable (linkText title <:+: body.toList))

/-- The body contains the text of the link, letters of ASCII in either case. -/
def ContainsLinkAnyCase (title body : String) : Prop :=
  (linkText title).map Text.toAsciiLower <:+: body.toList.map Text.toAsciiLower

theorem ContainsLink.anyCase {body : String} (contains : ContainsLink title body) :
    ContainsLinkAnyCase title body :=
  contains.map Text.toAsciiLower

/-- The ids of the memos that the list shows. -/
def backlinkIds (id : String) (db : MemoDb) : List String :=
  match (MemoStore.backlinks id db).1 with
  | .ok memos => memos.map MemoSummary.id
  | .error _ => []

theorem backlinks_run (found : db.memos.get? id = some memo) :
    backlinkIds id db =
      if memo.title = "" then []
      else (byUpdated (db.memos.rows.filter (linksTo id memo.title))).map Prod.fst := by
  have looked : (query (fun db => db.memos.get? id) : MemoStep (Option PersonalMemo)) db =
      (.ok (some memo), db) := ok_query.mpr ⟨found, rfl⟩
  have read : MemoStore.get id db = (.ok (detail id memo), db) := by
    rw [MemoStore.get, run_bind looked]
    rfl
  have title : (detail id memo).title = memo.title := rfl
  rw [backlinkIds, MemoStore.backlinks, run_bind read, title]
  by_cases untitled : memo.title = ""
  · rw [if_pos untitled, if_pos untitled]
    rfl
  · rw [if_neg untitled, if_neg untitled]
    change (List.map _ _).map MemoSummary.id = _
    rw [List.map_map]
    rfl

/-- What the list shows: memos other than the target and outside the trash that contain the link
in some case, when the target has a title. -/
theorem mem_backlinks (found : db.memos.get? id = some memo)
    (stored : db.memos.get? other = some row) :
    other ∈ backlinkIds id db ↔
      memo.title ≠ "" ∧ other ≠ id ∧ row.deletedAt = none ∧
        ContainsLinkAnyCase memo.title row.body := by
  have matched : linksTo id memo.title (other, row) = true ↔
      other ≠ id ∧ row.deletedAt = none ∧ ContainsLinkAnyCase memo.title row.body := by
    rw [linksTo, Bool.and_eq_true, Bool.and_eq_true, decide_eq_true_iff, like_backlinkPattern,
      Option.isNone_iff_eq_none, and_assoc]
    exact and_left_comm
  rw [backlinks_run found]
  by_cases untitled : memo.title = ""
  · rw [if_pos untitled]
    exact ⟨fun impossible => absurd impossible List.not_mem_nil,
      fun wanted => absurd untitled wanted.1⟩
  · rw [if_neg untitled, List.mem_map]
    constructor
    · rintro ⟨⟨key, listed⟩, member, rfl⟩
      have chosen := List.mem_filter.mp ((List.perm_insertionSort _ _).mem_iff.mp member)
      have same := (Table.get?_eq_some.mpr chosen.1).symm.trans stored
      cases same
      exact ⟨untitled, matched.mp chosen.2⟩
    · rintro ⟨-, wanted⟩
      refine ⟨(other, row), (List.perm_insertionSort _ _).mem_iff.mpr ?_, rfl⟩
      exact List.mem_filter.mpr ⟨Table.get?_eq_some.mp stored, matched.mpr wanted⟩

/-- A memo that the list leaves out (the target itself, what is in the trash, anything when the
target has no title) does not contain the link, and any other memo that contains the link with
letters of another case contains it as it is written, too. -/
def LinksAsWritten (id title other : String) (row : PersonalMemo) : Prop :=
  if title ≠ "" ∧ other ≠ id ∧ row.deletedAt = none then
    ContainsLinkAnyCase title row.body → ContainsLink title row.body
  else ¬ ContainsLink title row.body

/-- For every store and every memo of it, whatever its title: the list of backlinks is exactly the
memos that contain the link exactly when all of them contain it as it is written. -/
theorem backlinks_exact_iff (found : db.memos.get? id = some memo) :
    (∀ other row, db.memos.get? other = some row →
        (other ∈ backlinkIds id db ↔ ContainsLink memo.title row.body)) ↔
      ∀ other row, db.memos.get? other = some row → LinksAsWritten id memo.title other row := by
  refine forall_congr' (fun other => forall_congr' (fun row => imp_congr_right (fun stored => ?_)))
  rw [mem_backlinks found stored, LinksAsWritten]
  by_cases shown : memo.title ≠ "" ∧ other ≠ id ∧ row.deletedAt = none
  · rw [if_pos shown]
    constructor
    · exact fun same anyCase => same.mp ⟨shown.1, shown.2.1, shown.2.2, anyCase⟩
    · intro asWritten
      exact ⟨fun listed => asWritten listed.2.2.2,
        fun contains => ⟨shown.1, shown.2.1, shown.2.2, contains.anyCase⟩⟩
  · rw [if_neg shown]
    constructor
    · intro same contains
      obtain ⟨titled, differs, outside, -⟩ := same.mpr contains
      exact shown ⟨titled, differs, outside⟩
    · intro lacks
      exact ⟨fun listed => absurd ⟨listed.1, listed.2.1, listed.2.2.1⟩ shown,
        fun contains => absurd contains lacks⟩

/-- A store with a memo of a title and another memo of a body. -/
def linkedStore (title body : String) : MemoDb :=
  { MemoDb.empty with
    memos := (Table.empty.insert "target" (newMemo 0 title "" none [])).insert "other"
      (newMemo 0 "" body none []) }

theorem mem_linkedStore {title body : String}
    (stored : (linkedStore title body).memos.get? other = some row) :
    (other = "target" ∧ row = newMemo 0 title "" none []) ∨
      (other = "other" ∧ row = newMemo 0 "" body none []) := by
  have listed := Table.get?_eq_some.mp stored
  have rows : (linkedStore title body).memos.rows =
      [("target", newMemo 0 title "" none []), ("other", newMemo 0 "" body none [])] := rfl
  rw [rows] at listed
  rcases List.mem_cons.mp listed with same | listed
  · cases same
    exact .inl ⟨rfl, rfl⟩
  · cases List.mem_singleton.mp listed
    exact .inr ⟨rfl, rfl⟩

theorem backlinks_exact_wildcards :
    "other" ∈ backlinkIds "target" (linkedStore "50%_off\\" "see [[50%_off\\]]") ↔
      ContainsLink "50%_off\\" "see [[50%_off\\]]" := by
  have found : (linkedStore "50%_off\\" "see [[50%_off\\]]").memos.get? "target" =
      some (newMemo 0 "50%_off\\" "" none []) := rfl
  refine (backlinks_exact_iff found).mpr (fun other row stored => ?_) "other"
    (newMemo 0 "" "see [[50%_off\\]]" none []) rfl
  rcases mem_linkedStore stored with ⟨rfl, rfl⟩ | ⟨rfl, rfl⟩
  · rw [LinksAsWritten, if_neg (fun shown => shown.2.1 rfl)]
    decide
  · have contains : ContainsLink "50%_off\\" "see [[50%_off\\]]" := by decide
    rw [LinksAsWritten, if_pos (by decide)]
    exact fun _ => contains

/-- A link in another case is listed, which leads to no memo of that title. -/
theorem backlinks_otherCase :
    backlinkIds "target" (linkedStore "Plan" "see [[plan]]") = ["other"] ∧
      ¬ ContainsLink "Plan" "see [[plan]]" ∧
      resolveTitle "plan" (linkedStore "Plan" "see [[plan]]") = none :=
  ⟨by decide, by decide, by decide⟩

end PeerCove
