/-
Module: PeerCove.Library.Table
Layer: Library
Purpose: Tables of rows with a primary key: no two rows have the same key, and the statements
  INSERT, UPDATE and DELETE keep it so.
Trusted boundary: none
Main exports: Table, Table.get?, Table.insert, Table.update, Table.erase, Table.filter,
  Table.project
-/
import Mathlib.Algebra.Ring.Nat
import Mathlib.Data.List.Find
import Mathlib.Data.List.Nodup

/-- Rows in the order of their insertion, with pairwise different keys. -/
structure Table (κ ρ : Type) where
  rows : List (κ × ρ)
  nodup : (rows.map Prod.fst).Nodup

namespace Table

variable {κ ρ : Type}

def empty : Table κ ρ where
  rows := []
  nodup := List.nodup_nil

instance : Inhabited (Table κ ρ) := ⟨empty⟩

/-- A table is its rows. -/
theorem ext {one two : Table κ ρ} (same : one.rows = two.rows) : one = two := by
  cases one
  cases two
  cases same
  rfl

instance [DecidableEq κ] [DecidableEq ρ] : DecidableEq (Table κ ρ) := fun one two =>
  if same : one.rows = two.rows then isTrue (ext same)
  else
    isFalse (fun equal => same (congrArg rows equal))

/-- Number of rows. -/
def size (table : Table κ ρ) : Nat :=
  table.rows.length

/-- All rows that satisfy a condition on key and row. -/
def filter (keep : κ → ρ → Bool) (table : Table κ ρ) : Table κ ρ where
  rows := table.rows.filter (fun entry => keep entry.1 entry.2)
  nodup := table.nodup.sublist (List.filter_sublist.map Prod.fst)

/-- A condition that every row satisfies leaves the table as it is. -/
theorem filter_eq_self {keep : κ → ρ → Bool} {table : Table κ ρ}
    (all : ∀ entry ∈ table.rows, keep entry.1 entry.2 = true) : table.filter keep = table := by
  apply ext
  exact List.filter_eq_self.mpr all

/-- What is kept of the rows that were kept before. -/
theorem filter_filter_of_imp {keep before : κ → ρ → Bool} (table : Table κ ρ)
    (kept : ∀ key row, keep key row = true → before key row = true) :
    (table.filter before).filter keep = table.filter keep := by
  apply ext
  refine List.filter_filter.trans (List.filter_congr (fun entry _ => ?_))
  cases still : keep entry.1 entry.2 with
  | true => simp [kept _ _ still]
  | false => simp

/-- Every row changed in place. -/
def mapRows (change : κ → ρ → ρ) (table : Table κ ρ) : Table κ ρ where
  rows := table.rows.map (fun entry => (entry.1, change entry.1 entry.2))
  nodup := by
    rw [List.map_map]
    exact table.nodup

/-- The rows of one owner, when the key of a row begins with its owner. -/
def project {ι : Type} [DecidableEq ι] (table : Table (ι × κ) ρ) (owner : ι) : Table κ ρ where
  rows := (table.rows.filter (fun entry => entry.1.1 = owner)).map
    (fun entry => (entry.1.2, entry.2))
  nodup := by
    have distinct := table.nodup.sublist
      ((List.filter_sublist (p := fun entry => entry.1.1 = owner)).map Prod.fst)
    rw [List.map_map]
    -- the owner is the same throughout, so the rest of the key tells the rows apart
    refine List.Nodup.map_on ?_ distinct.of_map
    intro one first two second same
    have owned := (List.mem_filter.mp first).2
    have owned' := (List.mem_filter.mp second).2
    simp only [decide_eq_true_eq] at owned owned'
    exact List.inj_on_of_nodup_map distinct first second
      (Prod.ext (owned.trans owned'.symm) same)

/-- The rows of an owner whose rows are all kept. -/
theorem project_filter {ι : Type} [DecidableEq ι] (table : Table (ι × κ) ρ) (keep : ι → Bool)
    {owner : ι} (kept : keep owner = true) :
    (table.filter (fun key _ => keep key.1)).project owner = table.project owner := by
  apply ext
  refine congrArg (List.map (fun entry : (ι × κ) × ρ => (entry.1.2, entry.2))) ?_
  refine List.filter_filter.trans (List.filter_congr (fun entry _ => ?_))
  by_cases own : entry.1.1 = owner
  · simp [own, kept]
  · simp [own]

variable [DecidableEq κ]

/-- The row with a key. -/
def get? (table : Table κ ρ) (key : κ) : Option ρ :=
  (table.rows.find? (fun entry => entry.1 = key)).map Prod.snd

/-- Delete the row with a key, if there is one. -/
def erase (table : Table κ ρ) (key : κ) : Table κ ρ :=
  table.filter (fun other _ => other ≠ key)

/-- Change the row with a key, if there is one. -/
def update (table : Table κ ρ) (key : κ) (change : ρ → ρ) : Table κ ρ :=
  table.mapRows (fun other row => if other = key then change row else row)

/-- Insert a row, or replace the row with its key. -/
def insert (table : Table κ ρ) (key : κ) (row : ρ) : Table κ ρ where
  rows := (table.erase key).rows ++ [(key, row)]
  nodup := by
    rw [List.map_append, List.map_singleton, List.nodup_append]
    refine ⟨(table.erase key).nodup, List.nodup_singleton key, ?_⟩
    intro other member single same
    obtain ⟨entry, listed, rfl⟩ := List.mem_map.mp member
    obtain rfl := List.mem_singleton.mp same
    have differ := (List.mem_filter.mp listed).2
    simpa using differ

/-! ### Lookups -/

theorem get?_eq_some {table : Table κ ρ} {key : κ} {row : ρ} :
    table.get? key = some row ↔ (key, row) ∈ table.rows := by
  unfold get?
  rw [Option.map_eq_some_iff]
  constructor
  · intro h
    obtain ⟨entry, found, rfl⟩ := h
    have matched : entry.1 = key := by simpa using List.find?_some found
    rw [← matched]
    exact List.mem_of_find?_eq_some found
  · intro member
    cases found : table.rows.find? (fun entry => entry.1 = key) with
    | none =>
        have absent := List.find?_eq_none.mp found (key, row) member
        simp at absent
    | some entry =>
        have matched : entry.1 = key := by simpa using List.find?_some found
        have same := List.inj_on_of_nodup_map table.nodup (List.mem_of_find?_eq_some found)
          member matched
        exact ⟨entry, rfl, by rw [same]⟩

theorem get?_eq_none {table : Table κ ρ} {key : κ} :
    table.get? key = none ↔ ∀ row, (key, row) ∉ table.rows := by
  rw [Option.eq_none_iff_forall_ne_some]
  exact forall_congr' (fun row => not_congr get?_eq_some)

/-- The one row with a key that is there. -/
theorem rows_filter_key {table : Table κ ρ} {key : κ} {row : ρ}
    (found : table.get? key = some row) :
    table.rows.filter (fun entry => entry.1 = key) = [(key, row)] := by
  have listed := get?_eq_some.mp found
  have distinct := table.nodup
  generalize table.rows = rows at listed distinct
  induction rows with
  | nil => cases listed
  | cons entry rows ih =>
      rw [List.map_cons, List.nodup_cons] at distinct
      rcases List.mem_cons.mp listed with rfl | later
      · have others : rows.filter (fun entry => entry.1 = key) = [] := by
          apply List.filter_eq_nil_iff.mpr
          intro other member same
          have moved := List.mem_map_of_mem (f := Prod.fst) member
          rw [of_decide_eq_true same] at moved
          exact distinct.1 moved
        rw [List.filter_cons_of_pos (by simp), others]
      · have differ : entry.1 ≠ key := by
          intro same
          apply distinct.1
          rw [same]
          exact List.mem_map_of_mem (f := Prod.fst) later
        rw [List.filter_cons_of_neg (by simpa using differ)]
        exact ih later distinct.2

@[simp] theorem get?_empty (key : κ) : (empty : Table κ ρ).get? key = none := rfl

/-- A filtered table has the rows that were kept. -/
theorem get?_filter (keep : κ → ρ → Bool) (table : Table κ ρ) (key : κ) :
    (table.filter keep).get? key = (table.get? key).filter (keep key) := by
  cases found : table.get? key with
  | none =>
      rw [Option.filter_none, get?_eq_none]
      intro row member
      exact get?_eq_none.mp found row (List.mem_filter.mp member).1
  | some row =>
      have listed := get?_eq_some.mp found
      cases kept : keep key row with
      | true =>
          rw [Option.filter_some, if_pos kept, get?_eq_some]
          exact List.mem_filter.mpr ⟨listed, kept⟩
      | false =>
          rw [Option.filter_some, if_neg (by simp [kept]), get?_eq_none]
          intro other member
          obtain ⟨member, still⟩ := List.mem_filter.mp member
          have same := get?_eq_some.mpr member
          rw [found] at same
          cases same
          simp [kept] at still

theorem get?_mapRows (change : κ → ρ → ρ) (table : Table κ ρ) (key : κ) :
    (table.mapRows change).get? key = (table.get? key).map (change key) := by
  unfold get? mapRows
  rw [List.find?_map, Option.map_map, Option.map_map]
  have same : (fun entry : κ × ρ => decide (entry.1 = key)) ∘
      (fun entry : κ × ρ => (entry.1, change entry.1 entry.2)) =
        fun entry => decide (entry.1 = key) := rfl
  rw [same]
  cases found : table.rows.find? (fun entry => entry.1 = key) with
  | none => rfl
  | some entry =>
      have matched : entry.1 = key := by simpa using List.find?_some found
      simp [matched]

theorem get?_project {ι : Type} [DecidableEq ι] (table : Table (ι × κ) ρ) (owner : ι) (key : κ) :
    (table.project owner).get? key = table.get? (owner, key) := by
  refine Option.ext (fun row => ?_)
  rw [get?_eq_some, get?_eq_some]
  constructor
  · intro member
    obtain ⟨entry, kept, same⟩ := List.mem_map.mp member
    obtain ⟨listed, owned⟩ := List.mem_filter.mp kept
    obtain ⟨rfl, rfl⟩ := Prod.mk.inj same
    simp only [decide_eq_true_eq] at owned
    rw [← owned]
    exact listed
  · intro listed
    exact List.mem_map.mpr ⟨_, List.mem_filter.mpr ⟨listed, by simp⟩, rfl⟩

@[simp] theorem get?_erase_self (table : Table κ ρ) (key : κ) :
    (table.erase key).get? key = none := by
  rw [erase, get?_filter]
  cases table.get? key with
  | none => rfl
  | some row => simp

theorem get?_erase_of_ne (table : Table κ ρ) {key other : κ} (differ : other ≠ key) :
    (table.erase key).get? other = table.get? other := by
  rw [erase, get?_filter]
  cases table.get? other with
  | none => rfl
  | some row => simp [differ]

@[simp] theorem get?_update_self (table : Table κ ρ) (key : κ) (change : ρ → ρ) :
    (table.update key change).get? key = (table.get? key).map change := by
  rw [update, get?_mapRows]
  simp

theorem get?_update_of_ne (table : Table κ ρ) {key other : κ} (differ : other ≠ key)
    (change : ρ → ρ) : (table.update key change).get? other = table.get? other := by
  rw [update, get?_mapRows]
  simp [differ]

@[simp] theorem get?_insert_self (table : Table κ ρ) (key : κ) (row : ρ) :
    (table.insert key row).get? key = some row := by
  rw [get?_eq_some]
  exact List.mem_append_right _ (List.mem_singleton.mpr rfl)

theorem get?_insert_of_ne (table : Table κ ρ) {key other : κ} (differ : other ≠ key) (row : ρ) :
    (table.insert key row).get? other = table.get? other := by
  have kept : (table.insert key row).get? other = (table.erase key).get? other := by
    unfold get? insert
    rw [List.find?_append]
    simp [differ.symm]
  rw [kept, get?_erase_of_ne table differ]

/-- Insertion changes the looked-up row of its key only. -/
theorem get?_insert (table : Table κ ρ) (key other : κ) (row : ρ) :
    (table.insert key row).get? other = if other = key then some row else table.get? other := by
  by_cases same : other = key
  · subst same
    simp
  · rw [get?_insert_of_ne table same, if_neg same]

/-- Insertions under other keys leave a row as it is. -/
theorem get?_foldl_insert_absent {ι : Type} {key : ι → κ} {row : ι → ρ} {items : List ι}
    {wanted : κ} (absent : ∀ item ∈ items, key item ≠ wanted) {table : Table κ ρ} :
    (items.foldl (fun table item => table.insert (key item) (row item)) table).get? wanted
      = table.get? wanted := by
  induction items generalizing table with
  | nil => rfl
  | cons item rest ih =>
      rw [List.foldl_cons, ih (fun other member => absent other (List.mem_cons_of_mem _ member))]
      exact get?_insert_of_ne table (Ne.symm (absent item List.mem_cons_self)) _

/-- After insertions that agree on a key there is their row under it. -/
theorem get?_foldl_insert_found {ι : Type} {key : ι → κ} {row : ι → ρ} {items : List ι}
    {wanted : κ} {found : ρ} (present : ∃ item ∈ items, key item = wanted)
    (agree : ∀ item ∈ items, key item = wanted → row item = found) {table : Table κ ρ} :
    (items.foldl (fun table item => table.insert (key item) (row item)) table).get? wanted
      = some found := by
  induction items generalizing table with
  | nil =>
      obtain ⟨item, member, _⟩ := present
      cases member
  | cons item rest ih =>
      rw [List.foldl_cons]
      have agreeRest : ∀ other ∈ rest, key other = wanted → row other = found :=
        fun other member => agree other (List.mem_cons_of_mem _ member)
      by_cases later : ∃ other ∈ rest, key other = wanted
      · exact ih later agreeRest
      · have absent : ∀ other ∈ rest, key other ≠ wanted :=
          fun other member same => later ⟨other, member, same⟩
        rw [get?_foldl_insert_absent absent, get?_insert]
        obtain ⟨other, member, same⟩ := present
        cases member with
        | head => rw [if_pos same.symm, agree item List.mem_cons_self same]
        | tail _ inRest => exact absurd same (absent other inRest)

theorem get?_erase (table : Table κ ρ) (key other : κ) :
    (table.erase key).get? other = if other = key then none else table.get? other := by
  by_cases same : other = key
  · subst same
    simp
  · rw [get?_erase_of_ne table same, if_neg same]

theorem get?_update (table : Table κ ρ) (key other : κ) (change : ρ → ρ) :
    (table.update key change).get? other =
      if other = key then (table.get? other).map change else table.get? other := by
  by_cases same : other = key
  · subst same
    simp
  · rw [get?_update_of_ne table same, if_neg same]

/-! ### Sizes -/

theorem size_erase_some {table : Table κ ρ} {key : κ} {row : ρ}
    (found : table.get? key = some row) : (table.erase key).size + 1 = table.size := by
  have split := List.length_eq_length_filter_add (l := table.rows) (fun entry => entry.1 ≠ key)
  have one : (table.rows.filter (fun entry => !decide (entry.1 ≠ key))).length = 1 := by
    have same := rows_filter_key found
    simp only [ne_eq, decide_not, Bool.not_not]
    rw [same]
    rfl
  rw [one] at split
  exact split.symm

theorem erase_absent {table : Table κ ρ} {key : κ} (absent : table.get? key = none) :
    table.erase key = table := by
  apply filter_eq_self
  intro entry listed
  have differ : entry.1 ≠ key := by
    rintro rfl
    exact get?_eq_none.mp absent entry.2 listed
  simpa using differ

theorem size_erase_le (table : Table κ ρ) (key : κ) : (table.erase key).size ≤ table.size :=
  List.length_filter_le _ _

theorem size_update (table : Table κ ρ) (key : κ) (change : ρ → ρ) :
    (table.update key change).size = table.size := by
  simp [size, update, mapRows]

theorem size_insert (table : Table κ ρ) (key : κ) (row : ρ) :
    (table.insert key row).size = (table.erase key).size + 1 := by
  simp [size, insert]

/-! ### Sums over the rows -/

/-- The row with a key and the others. -/
theorem rows_perm {table : Table κ ρ} {key : κ} {row : ρ} (found : table.get? key = some row) :
    ((key, row) :: (table.erase key).rows).Perm table.rows := by
  have split := List.filter_append_perm (fun entry : κ × ρ => decide (entry.1 = key)) table.rows
  rw [rows_filter_key found] at split
  have others : (table.erase key).rows =
      table.rows.filter (fun entry => !decide (entry.1 = key)) :=
    List.filter_congr (fun entry _ => decide_not)
  rw [others]
  exact split

theorem sum_update {table : Table κ ρ} {key : κ} {row : ρ} (found : table.get? key = some row)
    (change : ρ → ρ) (measure : ρ → Nat) :
    ((table.update key change).rows.map (fun entry => measure entry.2)).sum + measure row =
      (table.rows.map (fun entry => measure entry.2)).sum + measure (change row) := by
  have updated : ((key, change row) :: (table.erase key).rows).Perm
      (table.update key change).rows := by
    have moved := (rows_perm found).map
      (fun entry : κ × ρ => (entry.1, if entry.1 = key then change entry.2 else entry.2))
    rw [List.map_cons, if_pos rfl] at moved
    have same : (table.erase key).rows.map
        (fun entry : κ × ρ => (entry.1, if entry.1 = key then change entry.2 else entry.2)) =
          (table.erase key).rows := by
      rw [List.map_congr_left (g := id), List.map_id]
      intro entry listed
      have differs : entry.1 ≠ key := of_decide_eq_true (List.mem_filter.mp listed).2
      rw [if_neg differs]
      rfl
    rw [same] at moved
    exact moved
  have before := ((rows_perm found).map (fun entry => measure entry.2)).sum_nat
  have after := (updated.map (fun entry => measure entry.2)).sum_nat
  rw [List.map_cons, List.sum_cons] at before after
  dsimp only at before after
  omega

theorem rows_insert {table : Table κ ρ} {key : κ} (absent : table.get? key = none) (row : ρ) :
    (table.insert key row).rows = table.rows ++ [(key, row)] := by
  change (table.erase key).rows ++ _ = _
  rw [erase_absent absent]

/-! ### Columns without repetitions -/

/-- No two rows have the same value in a column. -/
def Distinct {ν : Type} (column : ρ → ν) (table : Table κ ρ) : Prop :=
  ∀ one two row row', table.get? one = some row → table.get? two = some row' →
    column row = column row' → one = two

section Distinct

variable {ν : Type} {column : ρ → ν} {table : Table κ ρ} {key : κ} {row : ρ}

theorem distinct_empty : Distinct column (empty : Table κ ρ) := by
  intro one two row row' listed
  cases listed

theorem Distinct.erase (distinct : Distinct column table) (key : κ) :
    Distinct column (table.erase key) := by
  intro one two row row' listed listed'
  rw [get?_erase] at listed listed'
  split at listed
  · cases listed
  · split at listed'
    · cases listed'
    · exact distinct one two row row' listed listed'

theorem Distinct.insert (distinct : Distinct column table)
    (fresh : ∀ other row', table.get? other = some row' → column row' ≠ column row) :
    Distinct column (table.insert key row) := by
  intro one two row₁ row₂ listed listed' same
  rw [get?_insert] at listed listed'
  by_cases first : one = key
  · rw [if_pos first] at listed
    by_cases second : two = key
    · rw [first, second]
    · rw [if_neg second] at listed'
      cases listed
      exact absurd same.symm (fresh two row₂ listed')
  · rw [if_neg first] at listed
    by_cases second : two = key
    · rw [if_pos second] at listed'
      cases listed'
      exact absurd same (fresh one row₁ listed)
    · rw [if_neg second] at listed'
      exact distinct one two row₁ row₂ listed listed' same

/-- Changing one row keeps a column without repetitions exactly when no other row has the new
value. -/
theorem distinct_update (distinct : Distinct column table) (found : table.get? key = some row)
    (change : ρ → ρ) :
    Distinct column (table.update key change) ↔
      ∀ other row', table.get? other = some row' → other ≠ key →
        column row' ≠ column (change row) := by
  have changed : (table.update key change).get? key = some (change row) := by
    rw [get?_update_self, found, Option.map_some]
  constructor
  · intro still other row' listed differs same
    have kept : (table.update key change).get? other = some row' := by
      rw [get?_update_of_ne table differs]
      exact listed
    exact differs (still other key row' (change row) kept changed same)
  · intro fresh one two row₁ row₂ listed listed' same
    by_cases first : one = key
    · by_cases second : two = key
      · rw [first, second]
      · rw [first, changed] at listed
        rw [get?_update_of_ne table second] at listed'
        cases listed
        exact absurd same.symm (fresh two row₂ listed' second)
    · rw [get?_update_of_ne table first] at listed
      by_cases second : two = key
      · rw [second, changed] at listed'
        cases listed'
        exact absurd same (fresh one row₁ listed first)
      · rw [get?_update_of_ne table second] at listed'
        exact distinct one two row₁ row₂ listed listed' same

end Distinct

end Table
