/-
Module: PeerCove.Library.FirstMatch
Layer: Library
Purpose: Ordered rule lists in which the first rule that hits decides, over any type of rule
  and of result.
Trusted boundary: none
Main exports: FirstMatch.pick, FirstMatch.pick_append, FirstMatch.pick_flatMap,
  FirstMatch.pick_ne_iff_splits, FirstMatch.pick_ne_iff
-/
import Mathlib.Data.List.Basic

namespace FirstMatch

variable {ρ σ α : Type*}

/-- The result of the first rule that hits, or the fallback when none does. -/
def pick (hits : ρ → Bool) (result : ρ → α) (fallback : α) : List ρ → α
  | [] => fallback
  | rule :: rest => if hits rule then result rule else pick hits result fallback rest

@[simp] theorem pick_nil (hits : ρ → Bool) (result : ρ → α) (fallback : α) :
    pick hits result fallback [] = fallback := rfl

theorem pick_cons (hits : ρ → Bool) (result : ρ → α) (fallback : α) (rule : ρ)
    (rest : List ρ) :
    pick hits result fallback (rule :: rest) =
      if hits rule then result rule else pick hits result fallback rest := rfl

/-- The rules of a second list only matter as the fallback of the first. -/
theorem pick_append (hits : ρ → Bool) (result : ρ → α) (fallback : α) (first second : List ρ) :
    pick hits result fallback (first ++ second) =
      pick hits result (pick hits result fallback second) first := by
  induction first with
  | nil => rfl
  | cons rule rest ih => simp only [List.cons_append, pick_cons, ih]

theorem pick_map (image : σ → ρ) (hits : ρ → Bool) (result : ρ → α) (fallback : α)
    (rules : List σ) :
    pick hits result fallback (rules.map image) =
      pick (hits ∘ image) (result ∘ image) fallback rules := by
  induction rules with
  | nil => rfl
  | cons rule rest ih => simp only [List.map_cons, pick_cons, ih, Function.comp_apply]

/-- When every rule has the same result, only the question whether one hits remains. -/
theorem pick_const (hits : ρ → Bool) (result : ρ → α) (value fallback : α) (rules : List ρ)
    (same : ∀ rule ∈ rules, result rule = value) :
    pick hits result fallback rules = if rules.any hits then value else fallback := by
  induction rules with
  | nil => simp
  | cons rule rest ih =>
      have ih := ih (fun other member => same other (List.mem_cons_of_mem _ member))
      have here := same rule List.mem_cons_self
      cases hit : hits rule with
      | true => simp [pick_cons, hit, here]
      | false => simp [pick_cons, hit, ih]

theorem pick_of_silent (hits : ρ → Bool) (result : ρ → α) (fallback : α) (rules : List ρ)
    (silent : ∀ rule ∈ rules, hits rule = false) :
    pick hits result fallback rules = fallback := by
  induction rules with
  | nil => rfl
  | cons rule rest ih =>
      have quiet := silent rule List.mem_cons_self
      have ih := ih (fun other member => silent other (List.mem_cons_of_mem _ member))
      simp [pick_cons, quiet, ih]

/-- A function of the result may as well be applied to the result of each rule. -/
theorem pick_comp {β : Type*} (read : α → β) (hits : ρ → Bool) (result : ρ → α) (fallback : α)
    (rules : List ρ) :
    read (pick hits result fallback rules) = pick hits (read ∘ result) (read fallback) rules := by
  induction rules with
  | nil => rfl
  | cons rule rest ih =>
      rw [pick_cons, pick_cons, apply_ite read, ih]
      rfl

/-- Rules may be spelled out as several rules each, as long as these have its result and one of them
hits when it does. -/
theorem pick_flatMap (images : σ → List ρ) (hits : ρ → Bool) (result : ρ → α)
    (hitsWhole : σ → Bool) (resultWhole : σ → α) (fallback : α) (rules : List σ)
    (same : ∀ rule ∈ rules, ∀ image ∈ images rule, result image = resultWhole rule)
    (alike : ∀ rule ∈ rules, (images rule).any hits = hitsWhole rule) :
    pick hits result fallback (rules.flatMap images) =
      pick hitsWhole resultWhole fallback rules := by
  induction rules with
  | nil => rfl
  | cons rule rest ih =>
      have ih := ih (fun other member => same other (List.mem_cons_of_mem _ member))
        (fun other member => alike other (List.mem_cons_of_mem _ member))
      rw [List.flatMap_cons, pick_append, ih,
        pick_const hits result (resultWhole rule) _ _ (same rule List.mem_cons_self),
        alike rule List.mem_cons_self]
      rfl

/-- A test that every hit has to pass may as well be made on the list. -/
theorem pick_guarded (keep hits : ρ → Bool) (result : ρ → α) (fallback : α) (rules : List ρ) :
    pick (fun rule => keep rule && hits rule) result fallback rules =
      pick hits result fallback (rules.filter keep) := by
  induction rules with
  | nil => rfl
  | cons rule rest ih =>
      cases kept : keep rule with
      | true => simp [kept, pick_cons, ih]
      | false => simp [kept, pick_cons, ih]

/-- Two matchers that agree on every listed rule pick alike. -/
theorem pick_congr {loose strict : ρ → Bool} (result : ρ → α) (fallback : α)
    (rules : List ρ) (agree : ∀ rule ∈ rules, loose rule = strict rule) :
    pick loose result fallback rules = pick strict result fallback rules := by
  induction rules with
  | nil => rfl
  | cons rule rest ih =>
      have here := agree rule List.mem_cons_self
      have ih := ih (fun other member => agree other (List.mem_cons_of_mem _ member))
      simp [pick_cons, here, ih]

/-- Rules that never hit may be left out. -/
theorem pick_filter (keep hits : ρ → Bool) (result : ρ → α) (fallback : α) (rules : List ρ)
    (silent : ∀ rule ∈ rules, keep rule = false → hits rule = false) :
    pick hits result fallback (rules.filter keep) = pick hits result fallback rules := by
  rw [← pick_guarded]
  refine pick_congr result fallback rules (fun rule member => ?_)
  cases kept : keep rule with
  | true => rfl
  | false => rw [silent rule member kept]; rfl

/-- Rules that do not hit leave the decision to the rest. -/
theorem pick_append_of_silent (hits : ρ → Bool) (result : ρ → α) (fallback : α)
    (before rest : List ρ) (silent : ∀ rule ∈ before, hits rule = false) :
    pick hits result fallback (before ++ rest) = pick hits result fallback rest := by
  rw [pick_append, pick_of_silent hits result _ before silent]

/-- The first rule that either matcher hits is hit by one of them only, and its result is not what
the later rules give the other. -/
def Splits (one two : ρ → Bool) (result : ρ → α) (fallback : α) (rules : List ρ) : Prop :=
  ∃ before rule after, rules = before ++ rule :: after ∧
    (∀ other ∈ before, one other = false ∧ two other = false) ∧
    ((one rule = true ∧ two rule = false ∧ result rule ≠ pick two result fallback after) ∨
      (one rule = false ∧ two rule = true ∧ result rule ≠ pick one result fallback after))

theorem Splits.cons {one two : ρ → Bool} {result : ρ → α} {fallback : α} {rule : ρ}
    {rest : List ρ} (silent : one rule = false ∧ two rule = false)
    (splits : Splits one two result fallback rest) :
    Splits one two result fallback (rule :: rest) := by
  obtain ⟨before, deciding, after, rfl, quiet, differ⟩ := splits
  refine ⟨rule :: before, deciding, after, rfl, ?_, differ⟩
  intro other member
  rcases List.mem_cons.mp member with rfl | member
  · exact silent
  · exact quiet other member

/-- Two matchers decide differently exactly when their first hits split. -/
theorem pick_ne_iff_splits {one two : ρ → Bool} (result : ρ → α) (fallback : α)
    (rules : List ρ) :
    pick one result fallback rules ≠ pick two result fallback rules ↔
      Splits one two result fallback rules := by
  constructor
  · intro differ
    induction rules with
    | nil => exact absurd rfl differ
    | cons rule rest ih =>
        rw [pick_cons, pick_cons] at differ
        cases first : one rule with
        | true =>
            cases second : two rule with
            | true => simp [first, second] at differ
            | false =>
                have changed : result rule ≠ pick two result fallback rest := by
                  simpa [first, second] using differ
                exact ⟨[], rule, rest, rfl, by simp, .inl ⟨first, second, changed⟩⟩
        | false =>
            cases second : two rule with
            | true =>
                have changed : pick one result fallback rest ≠ result rule := by
                  simpa [first, second] using differ
                exact ⟨[], rule, rest, rfl, by simp, .inr ⟨first, second, changed.symm⟩⟩
            | false =>
                have later := ih (by simpa [first, second] using differ)
                exact later.cons ⟨first, second⟩
  · rintro ⟨before, rule, after, rfl, silent, differ⟩
    rw [pick_append_of_silent one _ _ _ _ (fun other member => (silent other member).1),
      pick_append_of_silent two _ _ _ _ (fun other member => (silent other member).2),
      pick_cons, pick_cons]
    rcases differ with ⟨hit, missed, changed⟩ | ⟨missed, hit, changed⟩
    · simpa [hit, missed] using changed
    · simpa [hit, missed] using changed.symm

/-- A matcher that hits too often decides differently exactly when its first hit is one the
strict matcher refuses and the result there is not the one the later rules give. -/
theorem pick_ne_iff {loose strict : ρ → Bool} (result : ρ → α) (fallback : α)
    (weaker : ∀ rule, strict rule = true → loose rule = true) (rules : List ρ) :
    pick loose result fallback rules ≠ pick strict result fallback rules ↔
      ∃ before rule after, rules = before ++ rule :: after ∧
        (∀ other ∈ before, loose other = false) ∧
        loose rule = true ∧ strict rule = false ∧
        result rule ≠ pick strict result fallback after := by
  have quiet (rule : ρ) (silent : loose rule = false) : strict rule = false := by
    cases hit : strict rule with
    | false => rfl
    | true => rw [weaker rule hit] at silent; cases silent
  rw [pick_ne_iff_splits]
  constructor
  · rintro ⟨before, rule, after, rfl, silent, ⟨hit, missed, changed⟩ | ⟨missed, hit, _⟩⟩
    · exact ⟨before, rule, after, rfl, fun other member => (silent other member).1, hit, missed,
        changed⟩
    · rw [quiet rule missed] at hit
      cases hit
  · rintro ⟨before, rule, after, rfl, silent, hit, missed, changed⟩
    exact ⟨before, rule, after, rfl,
      fun other member => ⟨silent other member, quiet other (silent other member)⟩,
      .inl ⟨hit, missed, changed⟩⟩

end FirstMatch
