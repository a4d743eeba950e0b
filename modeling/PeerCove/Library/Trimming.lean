/-
Module: PeerCove.Library.Trimming
Layer: Library
Purpose: Taking the elements that satisfy a test off both ends of a list.
Trusted boundary: none
Main exports: Trimming.trim, Trimming.strip, Trimming.strip_layered, Trimming.strip_of_layered
-/
import Mathlib.Data.List.DropRight

namespace PeerCove.Trimming

variable {α β : Type*} {p : α → Bool}

/-- The list without the elements at its ends that satisfy the test. -/
def trim (p : α → Bool) (items : List α) : List α :=
  (items.dropWhile p).rdropWhile p

theorem trim_nil : trim p [] = [] := rfl

theorem trim_map (p : β → Bool) (f : α → β) (items : List α) :
    trim p (items.map f) = (trim (fun item => p (f item)) items).map f := by
  unfold trim List.rdropWhile
  rw [List.dropWhile_map, ← List.map_reverse, List.dropWhile_map, ← List.map_reverse]
  rfl

theorem rdropWhile_of_all {front back : List α} (dropped : ∀ item ∈ back, p item = true) :
    (front ++ back).rdropWhile p = front.rdropWhile p := by
  unfold List.rdropWhile
  rw [List.reverse_append, List.dropWhile_append_of_pos]
  intro item member
  exact dropped item (List.mem_reverse.mp member)

/-- The test is not passed at the front of what is left. -/
theorem trim_head {items : List α} {item : α} (first : (trim p items).head? = some item) :
    p item = false := by
  have fails := List.head?_dropWhile_not p items
  obtain ⟨rest, same⟩ := List.rdropWhile_prefix p (items.dropWhile p)
  have front : (items.dropWhile p).head? = some item := by
    rw [← same, List.head?_append, show (List.rdropWhile p (items.dropWhile p)).head? =
      some item from first, Option.some_or]
  rw [front] at fails
  exact fails

/-- Nor at its back. -/
theorem trim_last {items : List α} {item : α} (last : (trim p items).getLast? = some item) :
    p item = false := by
  unfold trim List.rdropWhile at last
  rw [List.getLast?_reverse] at last
  have fails := List.head?_dropWhile_not p (items.dropWhile p).reverse
  rw [last] at fails
  exact fails

/-- What is taken off is a front and a back that satisfy the test. -/
theorem trim_split (p : α → Bool) (items : List α) :
    ∃ front back, items = front ++ trim p items ++ back ∧ (∀ item ∈ front, p item = true) ∧
      ∀ item ∈ back, p item = true := by
  refine ⟨items.takeWhile p, (items.dropWhile p).rtakeWhile p, ?_, ?_, ?_⟩
  · unfold trim
    rw [List.append_assoc, List.rdropWhile_append_rtakeWhile, List.takeWhile_append_dropWhile]
  · intro item member
    exact List.mem_takeWhile_imp member
  · intro item member
    exact List.mem_rtakeWhile_imp member

/-- More of them at the ends change nothing. -/
theorem trim_wrapped {front back items : List α} (before : ∀ item ∈ front, p item = true)
    (after : ∀ item ∈ back, p item = true) : trim p (front ++ items ++ back) = trim p items := by
  unfold trim
  rw [List.append_assoc, List.dropWhile_append_of_pos before, List.dropWhile_append]
  split
  · next none =>
      have nothing : items.dropWhile p = [] := List.isEmpty_iff.mp none
      have dropped : back.dropWhile p = [] := List.dropWhile_eq_nil_iff.mpr after
      rw [nothing, dropped]
  · exact rdropWhile_of_all after

theorem trim_of_all {items : List α} (dropped : ∀ item ∈ items, p item = true) :
    trim p items = [] := by
  have wrapped : trim p (items ++ [] ++ []) = trim p [] := trim_wrapped dropped (by simp)
  rwa [List.append_nil, List.append_nil, trim_nil] at wrapped

theorem dropWhile_before {front rest : List α}
    (head : ∀ item, rest.head? = some item → p item = false) :
    (front ++ rest).dropWhile p = front.dropWhile p ++ rest := by
  have kept : rest.dropWhile p = rest := by
    cases rest with
    | nil => rfl
    | cons item rest => rw [List.dropWhile_cons_of_neg (by simp [head item rfl])]
  rw [List.dropWhile_append]
  split
  · next none => rw [List.isEmpty_iff.mp none, kept, List.nil_append]
  · rfl

theorem rdropWhile_after {rest back : List α}
    (last : ∀ item, rest.getLast? = some item → p item = false) :
    (rest ++ back).rdropWhile p = rest ++ back.rdropWhile p := by
  unfold List.rdropWhile
  rw [List.reverse_append, dropWhile_before, List.reverse_append, List.reverse_reverse]
  intro item front
  rw [List.head?_reverse] at front
  exact last item front

/-- A middle whose ends fail the test keeps the two sides apart. -/
theorem trim_around {front middle back : List α} (filled : middle ≠ [])
    (head : ∀ item, middle.head? = some item → p item = false)
    (last : ∀ item, middle.getLast? = some item → p item = false) :
    trim p (front ++ middle ++ back) = front.dropWhile p ++ middle ++ back.rdropWhile p := by
  unfold trim
  rw [List.append_assoc, dropWhile_before, ← List.append_assoc, rdropWhile_after]
  · intro item final
    rw [List.getLast?_append_of_ne_nil _ filled] at final
    exact last item final
  · intro item first
    rw [List.head?_append_of_ne_nil _ filled] at first
    exact head item first

theorem trim_of_ends {items : List α} (head : ∀ item, items.head? = some item → p item = false)
    (last : ∀ item, items.getLast? = some item → p item = false) : trim p items = items := by
  by_cases filled : items = []
  · rw [filled, trim_nil]
  · have around : trim p ([] ++ items ++ []) = [] ++ items ++ [] := trim_around filled head last
    simpa using around

/-! ### Two kinds of elements, taken off in turn -/

section Layers

variable {q : α → Bool}

/-- Elements of one kind, then of another, then of the first kind again. -/
def strip (p q : α → Bool) (items : List α) : List α :=
  trim p (trim q (trim p items))

/-- At each end of the list, up to three layers around the middle. -/
def Layered (p q : α → Bool) (items middle : List α) : Prop :=
  ∃ front₁ front₂ front₃ back₃ back₂ back₁,
    items = front₁ ++ front₂ ++ front₃ ++ middle ++ (back₃ ++ back₂ ++ back₁) ∧
      (∀ item ∈ front₁ ++ front₃ ++ back₃ ++ back₁, p item = true) ∧
        ∀ item ∈ front₂ ++ back₂, q item = true

/-- What `strip` takes off. -/
theorem strip_layered (p q : α → Bool) (items : List α) :
    Layered p q items (strip p q items) := by
  obtain ⟨front₁, back₁, outer, before₁, after₁⟩ := trim_split p items
  obtain ⟨front₂, back₂, inner, before₂, after₂⟩ := trim_split q (trim p items)
  obtain ⟨front₃, back₃, core, before₃, after₃⟩ := trim_split p (trim q (trim p items))
  refine ⟨front₁, front₂, front₃, back₃, back₂, back₁, ?_, ?_, ?_⟩
  · conv_lhs => rw [outer, inner, core]
    simp only [strip, List.append_assoc]
  · intro item member
    simp only [List.mem_append] at member
    rcases member with ((first | first) | last) | last
    · exact before₁ item first
    · exact before₃ item first
    · exact after₃ item last
    · exact after₁ item last
  · intro item member
    rcases List.mem_append.mp member with first | last
    · exact before₂ item first
    · exact after₂ item last

theorem dropWhile_layers (apart : ∀ item, p item = true → q item = false)
    {front₁ front₂ front₃ : List α} (one : ∀ item ∈ front₁, p item = true)
    (two : ∀ item ∈ front₂, q item = true) (three : ∀ item ∈ front₃, p item = true) :
    (((front₁ ++ front₂ ++ front₃).dropWhile p).dropWhile q).dropWhile p = [] := by
  have gone : front₃.dropWhile p = [] := List.dropWhile_eq_nil_iff.mpr three
  rw [List.append_assoc, List.dropWhile_append_of_pos one]
  cases front₂ with
  | nil => rw [List.nil_append, gone]; rfl
  | cons item rest =>
      have fails : p item = false := by
        by_contra passes
        have other := apart item (by simpa using passes)
        rw [two item List.mem_cons_self] at other
        cases other
      have kept : front₃.dropWhile q = front₃ := by
        cases front₃ with
        | nil => rfl
        | cons item rest =>
            rw [List.dropWhile_cons_of_neg]
            rw [apart item (three item List.mem_cons_self)]
            exact Bool.false_ne_true
      have stays : (item :: rest ++ front₃).dropWhile p = item :: rest ++ front₃ := by
        rw [List.cons_append, List.dropWhile_cons_of_neg (by simp [fails])]
      rw [stays, List.dropWhile_append_of_pos two, kept, gone]

/-- With nothing in the middle, nothing is left. -/
theorem strip_hollow (apart : ∀ item, p item = true → q item = false)
    {front₁ front₂ between back₂ back₁ : List α} (one : ∀ item ∈ front₁, p item = true)
    (two : ∀ item ∈ front₂, q item = true) (mid : ∀ item ∈ between, p item = true)
    (two' : ∀ item ∈ back₂, q item = true) (one' : ∀ item ∈ back₁, p item = true) :
    strip p q (front₁ ++ (front₂ ++ between ++ back₂) ++ back₁) = [] := by
  have fails : ∀ item, q item = true → p item = false := by
    intro item passes
    by_contra other
    rw [apart item (by simpa using other)] at passes
    cases passes
  have kept : ∀ items : List α, (∀ item ∈ items, q item = true) → trim p items = items := by
    intro items each
    exact trim_of_ends (fun item first => fails item (each item (List.mem_of_mem_head? first)))
      (fun item final => fails item (each item (List.mem_of_mem_getLast? final)))
  unfold strip
  rw [trim_wrapped one one']
  by_cases front : front₂ = []
  · have wrapped : trim p (between ++ back₂ ++ []) = trim p back₂ := trim_wrapped mid (by simp)
    rw [List.append_nil] at wrapped
    rw [front, List.nil_append, wrapped, kept back₂ two', trim_of_all two', trim_nil]
  · by_cases back : back₂ = []
    · have wrapped : trim p ([] ++ front₂ ++ between) = trim p front₂ := trim_wrapped (by simp) mid
      rw [List.nil_append] at wrapped
      rw [back, List.append_nil, wrapped, kept front₂ two, trim_of_all two, trim_nil]
    · have stays : trim p (front₂ ++ between ++ back₂) = front₂ ++ between ++ back₂ := by
        apply trim_of_ends
        · intro item first
          rw [List.append_assoc, List.head?_append_of_ne_nil _ front] at first
          exact fails item (two item (List.mem_of_mem_head? first))
        · intro item final
          rw [List.getLast?_append_of_ne_nil _ back] at final
          exact fails item (two' item (List.mem_of_mem_getLast? final))
      have inner : trim q between = between :=
        trim_of_ends (fun item first => apart item (mid item (List.mem_of_mem_head? first)))
          (fun item final => apart item (mid item (List.mem_of_mem_getLast? final)))
      rw [stays, trim_wrapped two two', inner, trim_of_all mid]

/-- The middle is found again, if neither kind of element stands at its ends. -/
theorem strip_of_layered (apart : ∀ item, p item = true → q item = false)
    {items middle : List α} (layered : Layered p q items middle)
    (head : ∀ item, middle.head? = some item → p item = false ∧ q item = false)
    (last : ∀ item, middle.getLast? = some item → p item = false ∧ q item = false) :
    strip p q items = middle := by
  obtain ⟨front₁, front₂, front₃, back₃, back₂, back₁, same, outer, inner⟩ := layered
  simp only [List.mem_append] at outer inner
  subst same
  by_cases filled : middle = []
  · have hollow : strip p q (front₁ ++ (front₂ ++ (front₃ ++ back₃) ++ back₂) ++ back₁) = [] := by
      apply strip_hollow apart
      · exact fun item member => outer item (.inl (.inl (.inl member)))
      · exact fun item member => inner item (.inl member)
      · intro item member
        rcases List.mem_append.mp member with first | final
        · exact outer item (.inl (.inl (.inr first)))
        · exact outer item (.inl (.inr final))
      · exact fun item member => inner item (.inr member)
      · exact fun item member => outer item (.inr member)
    subst filled
    simpa only [List.append_assoc, List.nil_append] using hollow
  · have front : (((front₁ ++ front₂ ++ front₃).dropWhile p).dropWhile q).dropWhile p = [] := by
      apply dropWhile_layers apart
      · exact fun item member => outer item (.inl (.inl (.inl member)))
      · exact fun item member => inner item (.inl member)
      · exact fun item member => outer item (.inl (.inl (.inr member)))
    have back : (((back₃ ++ back₂ ++ back₁).rdropWhile p).rdropWhile q).rdropWhile p = [] := by
      unfold List.rdropWhile
      simp only [List.reverse_reverse, List.reverse_append, List.reverse_eq_nil_iff]
      rw [← List.append_assoc]
      apply dropWhile_layers apart
      · exact fun item member => outer item (.inr (List.mem_reverse.mp member))
      · exact fun item member => inner item (.inr (List.mem_reverse.mp member))
      · exact fun item member => outer item (.inl (.inr (List.mem_reverse.mp member)))
    have ends := fun item first => (head item first).1
    have ends' := fun item first => (head item first).2
    have tails := fun item final => (last item final).1
    have tails' := fun item final => (last item final).2
    unfold strip
    rw [trim_around filled ends tails, trim_around filled ends' tails',
      trim_around filled ends tails, front, back, List.nil_append, List.append_nil]

end Layers

end PeerCove.Trimming
