/-
Module: PeerCove.Library.Versioned
Layer: Library
Purpose: Registers whose content carries a version, and what a version says about the content
  when the register is never filled a second time.
Trusted boundary: none
Main exports: Versioned.Move, Versioned.Fresh, Versioned.unchanged_while_filled,
  Versioned.unchanged_since
-/
import Mathlib.Data.List.Chain

namespace Versioned

variable {α : Type}

/-- One change of a register: nothing, filling it with version 1, the next version, emptying it. -/
inductive Move : Option (Nat × α) → Option (Nat × α) → Prop where
  | stay (value : Option (Nat × α)) : Move value value
  | create (content : α) : Move none (some (1, content))
  | update (version : Nat) (content next : α) :
      Move (some (version, content)) (some (version + 1, next))
  | delete (version : Nat) (content : α) : Move (some (version, content)) none

/-- A history, newest value first, in which each value follows from the one before it. -/
def History (values : List (Option (Nat × α))) : Prop :=
  values.IsChain (fun new old => Move old new)

/-- No value of the history fills a register that was filled before. -/
def Fresh : List (Option (Nat × α)) → Prop
  | [] => True
  | [_] => True
  | new :: old :: older =>
      (old = none → new ≠ none → ∀ value ∈ older, value = none) ∧ Fresh (old :: older)

theorem History.tail {value : Option (Nat × α)} {older : List (Option (Nat × α))}
    (history : History (value :: older)) : History older :=
  List.IsChain.tail history

theorem Fresh.tail {value : Option (Nat × α)} {older : List (Option (Nat × α))}
    (fresh : Fresh (value :: older)) : Fresh older := by
  cases older with
  | nil => trivial
  | cons old older => exact fresh.2

theorem Fresh.suffix {newer older : List (Option (Nat × α))} (fresh : Fresh (newer ++ older)) :
    Fresh older := by
  induction newer with
  | nil => exact fresh
  | cons value newer ih => exact ih fresh.tail

/-- A register that starts empty never carries version 0. -/
theorem version_pos {values : List (Option (Nat × α))} (history : History values)
    (start : values.getLast? = some none) {version : Nat} {content : α}
    (member : some (version, content) ∈ values) : 1 ≤ version := by
  induction values generalizing version content with
  | nil => cases member
  | cons new older ih =>
      cases older with
      | nil =>
          obtain rfl : new = none := by simpa using start
          simp at member
      | cons old older =>
          have move := (List.isChain_cons_cons.mp history).1
          have ih {version : Nat} {content : α}
              (member : some (version, content) ∈ old :: older) : 1 ≤ version :=
            ih history.tail (by simpa using start) member
          rcases List.mem_cons.mp member with rfl | member
          · cases move with
            | stay => exact ih List.mem_cons_self
            | create => exact Nat.le_refl 1
            | update version content next => exact Nat.le_add_left 1 version
          · exact ih member

/-- While the register stays filled, versions do not fall, and under one version nothing changes. -/
theorem unchanged_while_filled {version earlier : Nat} {content before : α}
    {newer older : List (Option (Nat × α))}
    (history : History (some (version, content) :: newer ++ some (earlier, before) :: older))
    (filled : ∀ value ∈ newer, value ≠ none) :
    earlier ≤ version ∧
      (earlier = version → before = content ∧ ∀ value ∈ newer, value = some (version, content)) := by
  induction newer generalizing version content with
  | nil =>
      have move := (List.isChain_cons_cons.mp history).1
      cases move with
      | stay value => simp
      | update version content next => exact ⟨Nat.le_succ _, fun same => by omega⟩
  | cons value newer ih =>
      have move := (List.isChain_cons_cons.mp history).1
      have stillFilled : ∀ value ∈ newer, value ≠ none :=
        fun other member => filled other (List.mem_cons_of_mem value member)
      cases move with
      | stay value =>
          rcases ih history.tail stillFilled with ⟨below, same⟩
          refine ⟨below, ?_⟩
          intro equal
          rcases same equal with ⟨unchanged, all⟩
          refine ⟨unchanged, ?_⟩
          intro other member
          rcases List.mem_cons.mp member with rfl | member
          · rfl
          · exact all other member
      | create content => exact absurd rfl (filled none List.mem_cons_self)
      | update version content next =>
          rcases ih history.tail stillFilled with ⟨below, _⟩
          exact ⟨Nat.le_succ_of_le below, fun equal => by omega⟩

/-- A register that is never filled twice stays filled between two values. -/
theorem Fresh.filled {value earlier : Nat × α} {newer older : List (Option (Nat × α))}
    (fresh : Fresh (some value :: newer ++ some earlier :: older)) :
    ∀ between ∈ newer, between ≠ none := by
  induction newer generalizing value with
  | nil =>
      intro between member
      cases member
  | cons next newer ih =>
      cases next with
      | none =>
          -- the register was filled before, so it is not filled here
          have empty := fresh.1 rfl (by simp) (some earlier) (by simp)
          cases empty
      | some next =>
          intro between member
          rcases List.mem_cons.mp member with rfl | member
          · simp
          · exact ih fresh.tail between member

/-- Where the newest value was there before with some version, the versions have not fallen, and
under the same version nothing has changed since. -/
theorem unchanged_since {version earlier : Nat} {content before : α}
    {newer older : List (Option (Nat × α))}
    (history : History (some (version, content) :: newer ++ some (earlier, before) :: older))
    (fresh : Fresh (some (version, content) :: newer ++ some (earlier, before) :: older)) :
    earlier ≤ version ∧
      (earlier = version → before = content ∧ ∀ value ∈ newer, value = some (version, content)) :=
  unchanged_while_filled history fresh.filled

/-- A filled register that was empty before had never been filled until then. -/
theorem empty_before {version : Nat} {content : α} {newer older : List (Option (Nat × α))}
    (history : History (some (version, content) :: newer ++ none :: older))
    (fresh : Fresh (some (version, content) :: newer ++ none :: older)) :
    ∀ value ∈ older, value = none := by
  induction newer generalizing version content with
  | nil => exact fresh.1 rfl (by simp)
  | cons value newer ih =>
      have move := (List.isChain_cons_cons.mp history).1
      cases move with
      | stay value => exact ih history.tail fresh.tail
      | create content =>
          intro other member
          exact fresh.1 rfl (by simp) other (by simp [member])
      | update version content next => exact ih history.tail fresh.tail

end Versioned
