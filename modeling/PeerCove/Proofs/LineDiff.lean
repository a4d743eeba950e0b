/-
Module: PeerCove.Proofs.LineDiff
Layer: Proofs
Purpose: The line diff is a diff of the two bodies, and where the table is used it keeps as many
  lines as possible.
Trusted boundary: none
Main exports: oldSide, newSide, sameCount, lcsTable_filled, diffLines_longest
-/
import Mathlib.Algebra.Ring.Nat
import Mathlib.Data.List.TakeWhile
import PeerCove.Library.Lcs
import PeerCove.Memo.LineDiff

namespace PeerCove

variable {old new : List String} {dp : List Nat} {i j : Nat}

/-! ### The two sides of a diff -/

/-- The lines of the diff that the old body has. -/
def oldSide (diff : List DiffLine) : List String :=
  (diff.filter (fun line => line.kind ≠ .added)).map DiffLine.text

/-- The lines of the diff that the new body has. -/
def newSide (diff : List DiffLine) : List String :=
  (diff.filter (fun line => line.kind ≠ .removed)).map DiffLine.text

/-- Number of lines that stay the same. -/
def sameCount (diff : List DiffLine) : Nat :=
  diff.countP (fun line => line.kind = .same)

@[simp] theorem oldSide_append (diff more : List DiffLine) :
    oldSide (diff ++ more) = oldSide diff ++ oldSide more := by
  rw [oldSide, List.filter_append, List.map_append]
  rfl

@[simp] theorem newSide_append (diff more : List DiffLine) :
    newSide (diff ++ more) = newSide diff ++ newSide more := by
  rw [newSide, List.filter_append, List.map_append]
  rfl

@[simp] theorem sameCount_append (diff more : List DiffLine) :
    sameCount (diff ++ more) = sameCount diff + sameCount more :=
  List.countP_append

@[simp] theorem oldSide_all (kind : DiffLineKind) (lines : List String) :
    oldSide (DiffLine.all kind lines) = if kind = .added then [] else lines := by
  induction lines with
  | nil => simp [oldSide, DiffLine.all]
  | cons line lines ih => cases kind <;> simp_all [oldSide, DiffLine.all]

@[simp] theorem newSide_all (kind : DiffLineKind) (lines : List String) :
    newSide (DiffLine.all kind lines) = if kind = .removed then [] else lines := by
  induction lines with
  | nil => simp [newSide, DiffLine.all]
  | cons line lines ih => cases kind <;> simp_all [newSide, DiffLine.all]

@[simp] theorem sameCount_all (kind : DiffLineKind) (lines : List String) :
    sameCount (DiffLine.all kind lines) = if kind = .same then lines.length else 0 := by
  induction lines with
  | nil => simp [sameCount, DiffLine.all]
  | cons line lines ih => cases kind <;> simp_all [sameCount, DiffLine.all]

theorem sameCount_same (text : String) (diff : List DiffLine) :
    sameCount ({ kind := .same, text := text } :: diff) = sameCount diff + 1 :=
  List.countP_cons_of_pos rfl

theorem sameCount_other {line : DiffLine} (other : line.kind ≠ .same) (diff : List DiffLine) :
    sameCount (line :: diff) = sameCount diff :=
  List.countP_cons_of_neg (fun same => other (of_decide_eq_true same))

/-! ### The table -/

theorem dpCell_replicate (width size i j : Nat) :
    dpCell width (List.replicate size 0) i j = 0 := by
  rw [dpCell, List.getD_eq_getElem?_getD, List.getElem?_replicate]
  split <;> rfl

/-- Two cells of the table have different places. -/
theorem cell_injective {width r c : Nat} (inRow : c < width) (inRow' : j < width)
    (same : r * width + c = i * width + j) : r = i ∧ c = j := by
  have column : c = j := by
    have remainders := congrArg (· % width) same
    rwa [Nat.mul_add_mod_of_lt inRow, Nat.mul_add_mod_of_lt inRow'] at remainders
  subst column
  exact ⟨Nat.eq_of_mul_eq_mul_right (Nat.zero_lt_of_lt inRow) (Nat.add_right_cancel same), rfl⟩

/-- The rows from `i` on are done, in row `i` itself the cells from `j` on. -/
structure Filled (old new : List String) (dp : List Nat) (i j : Nat) : Prop where
  size : dp.length = (old.length + 1) * (new.length + 1)
  cells : ∀ r c, r ≤ old.length → c ≤ new.length → c = new.length ∨ i < r ∨ (r = i ∧ j ≤ c) →
    dpCell (new.length + 1) dp r c = Lcs.length (old.drop r) (new.drop c)

/-- Before the loops the last row and the last column are right: nothing is left of one list. -/
theorem filled_zero (old new : List String) :
    Filled old new (List.replicate ((old.length + 1) * (new.length + 1)) 0) old.length 0 := by
  constructor
  · exact List.length_replicate
  · intro r c atRow atColumn done
    rw [dpCell_replicate]
    rcases done with last | below | ⟨last, -⟩
    · rw [last, List.drop_length, Lcs.length_nil_right]
    · exact absurd atRow (Nat.not_le_of_lt below)
    · rw [last, List.drop_length, Lcs.length_nil_left]

/-- The row before a finished one starts at its last cell. -/
theorem Filled.nextRow (filled : Filled old new dp (i + 1) 0) : Filled old new dp i new.length where
  size := filled.size
  cells := by
    intro r c atRow atColumn done
    apply filled.cells r c atRow atColumn
    omega

theorem getElem?_differs (atOld : i < old.length) (atNew : j < new.length)
    (differs : old[i] ≠ new[j]) : old[i]? ≠ new[j]? := by
  rw [List.getElem?_eq_getElem atOld, List.getElem?_eq_getElem atNew]
  exact fun same => differs (Option.some.inj same)

/-- What the table holds next to a cell gives its value: the recurrence. -/
theorem lcs_recurrence (atOld : i < old.length) (atNew : j < new.length) :
    Lcs.length (old.drop i) (new.drop j) =
      if old[i]? = new[j]? then Lcs.length (old.drop (i + 1)) (new.drop (j + 1)) + 1
      else max (Lcs.length (old.drop (i + 1)) (new.drop j))
        (Lcs.length (old.drop i) (new.drop (j + 1))) := by
  rw [List.drop_eq_getElem_cons atOld, List.drop_eq_getElem_cons atNew]
  by_cases same : old[i] = new[j]
  · have found : old[i]? = new[j]? := by
      rw [List.getElem?_eq_getElem atOld, List.getElem?_eq_getElem atNew, same]
    rw [if_pos found, same, Lcs.length_cons_same]
  · rw [if_neg (getElem?_differs atOld atNew same), Lcs.length_cons_ne same]

theorem Filled.fillCell (filled : Filled old new dp i (j + 1)) (atOld : i < old.length)
    (atNew : j < new.length) : Filled old new (PeerCove.fillCell old new i dp j) i j := by
  constructor
  · rw [PeerCove.fillCell, List.length_set, filled.size]
  · intro r c atRow atColumn done
    by_cases here : r = i ∧ c = j
    · obtain ⟨rfl, rfl⟩ := here
      have inside : r * (new.length + 1) + c < dp.length := by
        rw [filled.size, Nat.succ_mul]
        have rows : r * (new.length + 1) ≤ old.length * (new.length + 1) :=
          Nat.mul_le_mul_right _ atRow
        omega
      have below := filled.cells (r + 1) (c + 1) atOld atNew (.inr (.inl (Nat.lt_succ_self r)))
      have under := filled.cells (r + 1) c atOld atColumn (.inr (.inl (Nat.lt_succ_self r)))
      have right := filled.cells r (c + 1) atRow atNew (.inr (.inr ⟨rfl, Nat.le_refl _⟩))
      rw [lcs_recurrence atOld atNew, ← below, ← under, ← right, PeerCove.fillCell]
      conv => lhs; rw [dpCell]
      rw [List.getD_eq_getElem?_getD, List.getElem?_set_self inside]
      rfl
    · have elsewhere : i * (new.length + 1) + j ≠ r * (new.length + 1) + c := by
        intro same
        exact here (cell_injective (Nat.lt_succ_of_le atColumn) (Nat.lt_succ_of_lt atNew) same.symm)
      rw [dpCell, PeerCove.fillCell, List.getD_eq_getElem?_getD, List.getElem?_set_ne elsewhere,
        ← List.getD_eq_getElem?_getD]
      apply filled.cells r c atRow atColumn
      omega

/-- A row is filled from its end. -/
theorem Filled.cellsBefore (atOld : i < old.length) (count : Nat) (fits : count ≤ new.length)
    (filled : Filled old new dp i count) :
    Filled old new ((List.range count).reverse.foldl (PeerCove.fillCell old new i) dp) i 0 := by
  induction count generalizing dp with
  | zero => exact filled
  | succ count ih =>
      rw [List.range_succ, List.reverse_append, List.reverse_singleton, List.singleton_append,
        List.foldl_cons]
      exact ih (Nat.le_of_succ_le fits) (filled.fillCell atOld fits)

theorem Filled.fillRow (filled : Filled old new dp (i + 1) 0) (atOld : i < old.length) :
    Filled old new (PeerCove.fillRow old new dp i) i 0 :=
  filled.nextRow.cellsBefore atOld new.length (Nat.le_refl _)

/-- The rows are filled from the last on. -/
theorem Filled.rowsBefore (count : Nat) (fits : count ≤ old.length)
    (filled : Filled old new dp count 0) :
    Filled old new ((List.range count).reverse.foldl (PeerCove.fillRow old new) dp) 0 0 := by
  induction count generalizing dp with
  | zero => exact filled
  | succ count ih =>
      rw [List.range_succ, List.reverse_append, List.reverse_singleton, List.singleton_append,
        List.foldl_cons]
      exact ih (Nat.le_of_succ_le fits) (filled.fillRow fits)

/-- Every cell of the finished table is the length that the comment on it says. -/
theorem lcsTable_filled (old new : List String) : Filled old new (lcsTable old new) 0 0 :=
  (filled_zero old new).rowsBefore old.length (Nat.le_refl _)

theorem lcsTable_cell {r c : Nat} (atRow : r ≤ old.length) (atColumn : c ≤ new.length) :
    dpCell (new.length + 1) (lcsTable old new) r c =
      Lcs.length (old.drop r) (new.drop c) := by
  apply (lcsTable_filled old new).cells r c atRow atColumn
  omega

/-! ### The diff from the table -/

theorem backtrack_oldSide (old new : List String) (dp : List Nat) (i j : Nat) :
    oldSide (backtrack old new dp i j) = old.drop i := by
  induction i, j using backtrack.induct old new dp with
  | case1 i j inside atOld atNew same ih =>
      rw [backtrack, dif_pos inside, if_pos same, List.drop_eq_getElem_cons atOld, ← ih]
      rfl
  | case2 i j inside atOld atNew differs down ih =>
      rw [backtrack, dif_pos inside, if_neg differs, if_pos down,
        List.drop_eq_getElem_cons atOld, ← ih]
      rfl
  | case3 i j inside atOld atNew differs right ih =>
      rw [backtrack, dif_pos inside, if_neg differs, if_neg right, ← ih]
      rfl
  | case4 i j outside =>
      rw [backtrack, dif_neg outside]
      simp

theorem backtrack_newSide (old new : List String) (dp : List Nat) (i j : Nat) :
    newSide (backtrack old new dp i j) = new.drop j := by
  induction i, j using backtrack.induct old new dp with
  | case1 i j inside atOld atNew same ih =>
      rw [backtrack, dif_pos inside, if_pos same, List.drop_eq_getElem_cons atNew, ← ih, same]
      rfl
  | case2 i j inside atOld atNew differs down ih =>
      rw [backtrack, dif_pos inside, if_neg differs, if_pos down, ← ih]
      rfl
  | case3 i j inside atOld atNew differs right ih =>
      rw [backtrack, dif_pos inside, if_neg differs, if_neg right,
        List.drop_eq_getElem_cons atNew, ← ih]
      rfl
  | case4 i j outside =>
      rw [backtrack, dif_neg outside]
      simp

/-- Reading the finished table keeps as many lines as its first cell says. -/
theorem backtrack_sameCount (old new : List String) (i j : Nat) :
    sameCount (backtrack old new (lcsTable old new) i j) =
      Lcs.length (old.drop i) (new.drop j) := by
  induction i, j using backtrack.induct old new (lcsTable old new) with
  | case1 i j inside atOld atNew same ih =>
      rw [backtrack, dif_pos inside, if_pos same, sameCount_same, ih,
        List.drop_eq_getElem_cons atOld, List.drop_eq_getElem_cons atNew, same,
        Lcs.length_cons_same]
  | case2 i j inside atOld atNew differs down ih =>
      rw [backtrack, dif_pos inside, if_neg differs, if_pos down,
        sameCount_other DiffLineKind.noConfusion, ih]
      rw [lcsTable_cell atOld (Nat.le_of_lt atNew),
        lcsTable_cell (Nat.le_of_lt atOld) atNew] at down
      rw [lcs_recurrence atOld atNew, if_neg (getElem?_differs atOld atNew differs),
        Nat.max_eq_left down]
  | case3 i j inside atOld atNew differs right ih =>
      rw [backtrack, dif_pos inside, if_neg differs, if_neg right,
        sameCount_other DiffLineKind.noConfusion, ih]
      rw [lcsTable_cell atOld (Nat.le_of_lt atNew),
        lcsTable_cell (Nat.le_of_lt atOld) atNew] at right
      rw [lcs_recurrence atOld atNew, if_neg (getElem?_differs atOld atNew differs),
        Nat.max_eq_right (Nat.le_of_not_le right)]
  | case4 i j outside =>
      rw [backtrack, dif_neg outside, sameCount_append, sameCount_all, sameCount_all]
      rcases Nat.lt_or_ge i old.length with inside | ended
      · have ended : new.length ≤ j := Nat.le_of_not_lt (fun within => outside ⟨inside, within⟩)
        rw [List.drop_eq_nil_of_le ended, Lcs.length_nil_right]
        rfl
      · rw [List.drop_eq_nil_of_le ended, Lcs.length_nil_left]
        rfl

theorem lcsDiff_longest (old new : List String) :
    Lcs.Longest old new (sameCount (lcsDiff old new)) := by
  rw [lcsDiff, backtrack_sameCount, List.drop_zero, List.drop_zero]
  exact Lcs.length_longest old new

/-! ### The common ends -/

/-- What a counting loop passed over satisfies its test. -/
theorem of_lt_takeWhile {test : Nat → Bool} {bound k : Nat}
    (passed : k < ((List.range bound).takeWhile test).length) : test k = true ∧ k < bound := by
  have listed : ((List.range bound).takeWhile test)[k] ∈ (List.range bound).takeWhile test :=
    List.getElem_mem passed
  have value : ((List.range bound).takeWhile test)[k] = k := by
    rw [(List.takeWhile_prefix test).getElem passed, List.getElem_range]
  have inRange : k < (List.range bound).length :=
    Nat.lt_of_lt_of_le passed (List.takeWhile_prefix test).length_le
  rw [List.length_range] at inRange
  exact ⟨value ▸ List.mem_takeWhile_imp listed, inRange⟩

theorem length_takeWhile_range (test : Nat → Bool) (bound : Nat) :
    ((List.range bound).takeWhile test).length ≤ bound := by
  have shorter := (List.takeWhile_prefix (l := List.range bound) test).length_le
  rwa [List.length_range] at shorter

/-- The lines at the start are the same ones. -/
theorem take_prefixLines (old new : List String) :
    old.take (prefixLines old new) = new.take (prefixLines old new) := by
  apply List.ext_getElem?
  intro k
  rw [List.getElem?_take, List.getElem?_take]
  by_cases passed : k < prefixLines old new
  · rw [if_pos passed, if_pos passed]
    exact of_decide_eq_true (of_lt_takeWhile passed).1
  · rw [if_neg passed, if_neg passed]

/-- The lines at the end are the same ones. -/
theorem drop_suffixLines (old new : List String) (prefixLen : Nat) :
    old.drop (old.length - suffixLines old new prefixLen) =
      new.drop (new.length - suffixLines old new prefixLen) := by
  have atMost : suffixLines old new prefixLen ≤ min old.length new.length - prefixLen :=
    length_takeWhile_range _ _
  apply List.ext_getElem?
  intro k
  rw [List.getElem?_drop, List.getElem?_drop]
  by_cases passed : k < suffixLines old new prefixLen
  · have fromEnd : suffixLines old new prefixLen - 1 - k < suffixLines old new prefixLen := by omega
    have same := of_decide_eq_true (of_lt_takeWhile fromEnd).1
    have oldIndex : old.length - 1 - (suffixLines old new prefixLen - 1 - k) =
        old.length - suffixLines old new prefixLen + k := by omega
    have newIndex : new.length - 1 - (suffixLines old new prefixLen - 1 - k) =
        new.length - suffixLines old new prefixLen + k := by omega
    rwa [oldIndex, newIndex] at same
  · rw [List.getElem?_eq_none, List.getElem?_eq_none]
    · omega
    · omega

theorem ends_fit (old new : List String) :
    prefixLines old new + suffixLines old new (prefixLines old new) ≤
      min old.length new.length := by
  have start : prefixLines old new ≤ min old.length new.length := length_takeWhile_range _ _
  have ending : suffixLines old new (prefixLines old new) ≤
      min old.length new.length - prefixLines old new := length_takeWhile_range _ _
  omega

/-- Start, middle and end make up the lines. -/
theorem middle_parts {lines : List String} {prefixLen suffixLen : Nat}
    (fits : prefixLen + suffixLen ≤ lines.length) :
    lines.take prefixLen ++ middle lines prefixLen suffixLen ++
      lines.drop (lines.length - suffixLen) = lines := by
  have start : lines.take prefixLen = (lines.take (lines.length - suffixLen)).take prefixLen := by
    rw [List.take_take, Nat.min_eq_left (by omega)]
  rw [start, middle, List.take_append_drop, List.take_append_drop]

/-! ### The diff of two bodies -/

/-- The middle parts of two lists of lines, after the common ends. -/
def middleParts (old new : List String) : List String × List String :=
  (middle old (prefixLines old new) (suffixLines old new (prefixLines old new)),
    middle new (prefixLines old new) (suffixLines old new (prefixLines old new)))

/-- What is put between the common ends. -/
def middleDiff (old new : List String) : List DiffLine :=
  if old.length * new.length > DIFF_TABLE_LIMIT then
    DiffLine.all .removed old ++ DiffLine.all .added new
  else
    lcsDiff old new

theorem middleDiff_sides (old new : List String) :
    oldSide (middleDiff old new) = old ∧ newSide (middleDiff old new) = new := by
  rw [middleDiff]
  split
  · simp
  · rw [lcsDiff, backtrack_oldSide, backtrack_newSide]
    exact ⟨rfl, rfl⟩

/-- Both lists from their common ends and their middle parts, and the diff accordingly. -/
theorem diffOfLines_parts (old new : List String) :
    ∃ start ending,
      old = start ++ (middleParts old new).1 ++ ending ∧
      new = start ++ (middleParts old new).2 ++ ending ∧
      diffOfLines old new = DiffLine.all .same start ++
        middleDiff (middleParts old new).1 (middleParts old new).2 ++
          DiffLine.all .same ending := by
  have fits := ends_fit old new
  refine ⟨old.take (prefixLines old new),
    old.drop (old.length - suffixLines old new (prefixLines old new)), ?_, ?_, rfl⟩
  · exact (middle_parts (by omega)).symm
  · rw [take_prefixLines, drop_suffixLines]
    exact (middle_parts (by omega)).symm

/-- The lines that stay and those that go, in order, are the old body, the lines that stay and
those that come are the new one; and while the middle parts fit the table, as many lines stay as
in any common subsequence. -/
theorem diffLines_longest (old new : String) :
    oldSide (diffLines old new) = Text.lines old ∧
      newSide (diffLines old new) = Text.lines new ∧
      ((middleParts (Text.lines old) (Text.lines new)).1.length *
          (middleParts (Text.lines old) (Text.lines new)).2.length ≤ DIFF_TABLE_LIMIT →
        Lcs.Longest (Text.lines old) (Text.lines new) (sameCount (diffLines old new))) := by
  obtain ⟨start, ending, oldParts, newParts, diff⟩ :=
    diffOfLines_parts (Text.lines old) (Text.lines new)
  obtain ⟨oldMiddle, newMiddle⟩ := middleDiff_sides
    (middleParts (Text.lines old) (Text.lines new)).1
    (middleParts (Text.lines old) (Text.lines new)).2
  refine ⟨?_, ?_, fun fits => ?_⟩
  · rw [diffLines, diff, oldSide_append, oldSide_append, oldMiddle, oldSide_all, oldSide_all]
    exact oldParts.symm
  · rw [diffLines, diff, newSide_append, newSide_append, newMiddle, newSide_all, newSide_all]
    exact newParts.symm
  · have table : middleDiff (middleParts (Text.lines old) (Text.lines new)).1
        (middleParts (Text.lines old) (Text.lines new)).2 =
          lcsDiff (middleParts (Text.lines old) (Text.lines new)).1
            (middleParts (Text.lines old) (Text.lines new)).2 :=
      if_neg (Nat.not_lt_of_le fits)
    have longest := ((lcsDiff_longest (middleParts (Text.lines old) (Text.lines new)).1
      (middleParts (Text.lines old) (Text.lines new)).2).append_left start).append_right ending
    rw [← oldParts, ← newParts] at longest
    rw [diffLines, diff, table, sameCount_append, sameCount_append, sameCount_all, sameCount_all]
    exact longest

theorem diffLines_longest_replaced :
    Lcs.Longest ["a", "old", "z"] ["a", "new1", "new2", "z"]
      (sameCount (diffLines "a\nold\nz" "a\nnew1\nnew2\nz")) :=
  (diffLines_longest "a\nold\nz" "a\nnew1\nnew2\nz").2.2 (by decide)

end PeerCove
