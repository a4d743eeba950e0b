/-
Module: PeerCove.Library.FirstFree
Layer: Library
Purpose: Names that are given out one after the other, each the first of its candidates that is not
  taken: what changes for the others when some are left out.
Trusted boundary: none
Main exports: FirstFree.Stable, FirstFree.pass, FirstFree.pass_filter
-/
import Mathlib.Data.List.Basic
import Mathlib.Data.List.Sort

namespace FirstFree

variable {α ι : Type}

/-- A choice of a name that is not taken.  When more names are taken, another one is chosen only
if this one is among them. -/
structure Stable (choose : List α → α) : Prop where
  fresh : ∀ taken, choose taken ∉ taken
  keeps : ∀ taken more, taken ⊆ more → choose taken ∉ more → choose more = choose taken

/-- Gives out names, where an item asks for one: the names, and all that are taken then. -/
def pass (pick : ι → Option (List α → α)) : List α → List ι → List (Option α) × List α
  | taken, [] => ([], taken)
  | taken, item :: rest =>
      match pick item with
      | none => (none :: (pass pick taken rest).1, (pass pick taken rest).2)
      | some choose =>
          (some (choose taken) :: (pass pick (choose taken :: taken) rest).1,
            (pass pick (choose taken :: taken) rest).2)

variable {pick : ι → Option (List α → α)} {keep : ι → Bool} {hidden : α → Prop} {item : ι}

theorem pass_none (taken : List α) (rest : List ι) (none_ : pick item = none) :
    pass pick taken (item :: rest) =
      (none :: (pass pick taken rest).1, (pass pick taken rest).2) := by
  rw [pass, none_]

theorem pass_some {choose : List α → α} (taken : List α) (rest : List ι)
    (some_ : pick item = some choose) :
    pass pick taken (item :: rest) =
      (some (choose taken) :: (pass pick (choose taken :: taken) rest).1,
        (pass pick (choose taken :: taken) rest).2) := by
  rw [pass, some_]

theorem pass_length (taken : List α) (items : List ι) :
    (pass pick taken items).1.length = items.length := by
  induction items generalizing taken with
  | nil => rfl
  | cons item rest ih =>
      cases asks : pick item with
      | none => rw [pass_none taken rest asks, List.length_cons, List.length_cons, ih]
      | some choose => rw [pass_some taken rest asks, List.length_cons, List.length_cons, ih]

theorem pass_append (taken : List α) (front back : List ι) :
    pass pick taken (front ++ back) =
      ((pass pick taken front).1 ++
          (pass pick (pass pick taken front).2 back).1,
        (pass pick (pass pick taken front).2 back).2) := by
  induction front generalizing taken with
  | nil => rfl
  | cons item front ih =>
      cases asks : pick item with
      | none =>
          rw [List.cons_append, pass_none taken _ asks, pass_none taken _ asks, ih]
          rfl
      | some choose =>
          rw [List.cons_append, pass_some taken _ asks, pass_some taken _ asks, ih]
          rfl

/-- What is taken at the end was taken before or is given out. -/
theorem mem_taken {taken : List α} {items : List ι} {name : α}
    (listed : name ∈ (pass pick taken items).2) :
    name ∈ taken ∨ some name ∈ (pass pick taken items).1 := by
  induction items generalizing taken with
  | nil => exact .inl listed
  | cons item items ih =>
      cases asks : pick item with
      | none =>
          rw [pass_none taken _ asks] at listed ⊢
          exact (ih listed).imp_right (List.mem_cons_of_mem _)
      | some choose =>
          rw [pass_some taken _ asks] at listed ⊢
          rcases ih listed with old | given
          · rcases List.mem_cons.mp old with rfl | old
            · exact .inr List.mem_cons_self
            · exact .inl old
          · exact .inr (List.mem_cons_of_mem _ given)

theorem mem_zip_pass {taken : List α} {items : List ι} {name : Option α}
    (listed : name ∈ (pass pick taken items).1) :
    ∃ item, (item, name) ∈ items.zip (pass pick taken items).1 := by
  have names : (items.zip (pass pick taken items).1).map Prod.snd = (pass pick taken items).1 :=
    List.map_snd_zip (Nat.le_of_eq (pass_length taken items))
  rw [← names] at listed
  obtain ⟨⟨item, _⟩, there, rfl⟩ := List.mem_map.mp listed
  exact ⟨item, there⟩

/-- Names go to the items that ask for one. -/
theorem asks_of_mem_zip {taken : List α} {items : List ι} {name : α}
    (given : (item, some name) ∈ items.zip (pass pick taken items).1) : pick item ≠ none := by
  induction items generalizing taken with
  | nil => cases given
  | cons first rest ih =>
      cases asks : pick first with
      | none =>
          rw [pass_none taken rest asks, List.zip_cons_cons] at given
          rcases List.mem_cons.mp given with same | later
          · cases (Prod.mk.inj same).2
          · exact ih later
      | some choose =>
          rw [pass_some taken rest asks, List.zip_cons_cons] at given
          rcases List.mem_cons.mp given with same | later
          · rw [(Prod.mk.inj same).1, asks]
            exact Option.some_ne_none choose
          · exact ih later

/-- The names of the items that are kept. -/
def namesOf {ν : Type} (keep : ι → Bool) (items : List ι) (names : List ν) : List ν :=
  ((items.zip names).filter (fun pair => keep pair.1)).map Prod.snd

theorem namesOf_kept {ν : Type} (kept : keep item = true) (rest : List ι) (name : ν)
    (names : List ν) :
    namesOf keep (item :: rest) (name :: names) = name :: namesOf keep rest names := by
  simp only [namesOf, List.zip_cons_cons, List.filter_cons, kept, if_true, List.map_cons]

theorem namesOf_dropped {ν : Type} (dropped : keep item = false) (rest : List ι) (name : ν)
    (names : List ν) :
    namesOf keep (item :: rest) (name :: names) = namesOf keep rest names := by
  simp only [namesOf, List.zip_cons_cons, List.filter_cons, dropped, Bool.false_eq_true, if_false]

theorem zip_namesOf {ν : Type} {items : List ι} {names : List ν}
    (length : names.length = items.length) :
    (items.filter keep).zip (namesOf keep items names) =
      (items.zip names).filter (fun pair => keep pair.1) := by
  induction items generalizing names with
  | nil => rfl
  | cons item rest ih =>
      cases names with
      | nil => cases length
      | cons name names =>
          have shorter := Nat.succ.inj length
          cases kept : keep item with
          | true =>
              rw [namesOf_kept kept, List.filter_cons_of_pos kept, List.zip_cons_cons, ih shorter,
                List.zip_cons_cons]
              exact (List.filter_cons_of_pos (p := fun pair : ι × ν => keep pair.1) kept).symm
          | false =>
              have dropped : ¬ keep item = true := ne_true_of_eq_false kept
              rw [namesOf_dropped kept, List.filter_cons_of_neg dropped, ih shorter,
                List.zip_cons_cons]
              exact (List.filter_cons_of_neg (p := fun pair : ι × ν => keep pair.1) dropped).symm

/-- The items that are left out make no difference to the others when none of the others gets,
without them, a name that one of them has. -/
theorem pass_filter (keep : ι → Bool) (hidden : α → Prop)
    (stable : ∀ item choose, pick item = some choose → Stable choose)
    {taken shorter : List α} {items : List ι} (fewer : shorter ⊆ taken)
    (others : ∀ name ∈ taken, name ∈ shorter ∨ hidden name)
    (covers : ∀ item name, (item, some name) ∈ items.zip (pass pick taken items).1 →
      keep item = false → hidden name)
    (apart : ∀ name, some name ∈ (pass pick shorter (items.filter keep)).1 → ¬ hidden name) :
    (pass pick shorter (items.filter keep)).1 =
        namesOf keep items (pass pick taken items).1 ∧
      (pass pick shorter (items.filter keep)).2 ⊆ (pass pick taken items).2 ∧
      ∀ name ∈ (pass pick taken items).2,
        name ∈ (pass pick shorter (items.filter keep)).2 ∨ hidden name := by
  induction items generalizing taken shorter with
  | nil => exact ⟨rfl, fewer, others⟩
  | cons item rest ih =>
      cases asks : pick item with
      | none =>
          rw [pass_none taken rest asks] at covers ⊢
          have coversRest := fun other name listed =>
            covers other name (List.mem_cons_of_mem _ listed)
          cases kept : keep item with
          | true =>
              rw [List.filter_cons_of_pos kept, pass_none shorter _ asks] at apart ⊢
              obtain ⟨names, rest_⟩ := ih fewer others coversRest
                (fun name listed => apart name (List.mem_cons_of_mem _ listed))
              refine ⟨?_, rest_⟩
              rw [namesOf_kept kept, ← names]
          | false =>
              have dropped : ¬ keep item = true := ne_true_of_eq_false kept
              rw [List.filter_cons_of_neg dropped] at apart ⊢
              rw [namesOf_dropped kept]
              exact ih fewer others coversRest apart
      | some choose =>
          have steady := stable item choose asks
          rw [pass_some taken rest asks] at covers ⊢
          have coversRest := fun other name listed =>
            covers other name (List.mem_cons_of_mem _ listed)
          cases kept : keep item with
          | true =>
              rw [List.filter_cons_of_pos kept, pass_some shorter _ asks] at apart ⊢
              -- The name that is free without the others is free with them.
              have free : choose shorter ∉ taken := by
                intro listed
                rcases others _ listed with short | isHidden
                · exact steady.fresh shorter short
                · exact apart _ List.mem_cons_self isHidden
              have same := steady.keeps shorter taken fewer free
              rw [same] at coversRest ⊢
              obtain ⟨names, rest_⟩ := ih (List.cons_subset_cons _ fewer)
                (by
                  intro name listed
                  rcases List.mem_cons.mp listed with rfl | old
                  · exact .inl List.mem_cons_self
                  · exact (others name old).imp_left (List.mem_cons_of_mem _))
                coversRest (fun name listed => apart name (List.mem_cons_of_mem _ listed))
              refine ⟨?_, rest_⟩
              rw [namesOf_kept kept, ← names]
          | false =>
              have dropped : ¬ keep item = true := ne_true_of_eq_false kept
              rw [List.filter_cons_of_neg dropped] at apart ⊢
              rw [namesOf_dropped kept]
              have isHidden := covers item _ List.mem_cons_self kept
              refine ih (List.subset_cons_of_subset _ fewer) ?_ coversRest apart
              intro name listed
              rcases List.mem_cons.mp listed with rfl | old
              · exact .inr isHidden
              · exact others name old

end FirstFree
